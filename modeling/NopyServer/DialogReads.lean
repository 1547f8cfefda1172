/-
Reads behind an end: five branches of `call_dialog` take the words of a message
at fixed distances from the word that names the dialog, and some of their loops
read the word behind the one they are at.  The guards of the form
`a_.size() >= (b_ + 1) - 1` are always true, and one branch does not compare the
tile with the size of the world.

As for the displays, a branch without a result is one that read a word behind the
end of the message or a block outside the world.
-/
import NopyServer.DisplayConservation
import NopyServer.SuckerBox
import NopyServer.VendingConservation

namespace NopyServer

namespace DialogReads

open Inventory BoundedLoop

open Displays (onlyAccess)

section Position

/-- The words of the position, if they start with digits. -/
def position (a : List String) (i : Nat) : Option (Option (Int × Int)) := do
  let tilex ← a[i + 2]?
  if isDigit (firstChar tilex) = false then return none
  let tiley ← a[i + 5]?
  if isDigit (firstChar tiley) = false then return none
  return some (atoi tilex, atoi tiley)

/-- The player's world and its block at a position, if the world is there and the
position is one of its positions. -/
def visited (x y : Int) (s : Session) :
    Option (Option (Nat × World × Nat × WorldBlock)) := do
  let some w := s.findWorld s.pl.world | return none
  let some world := s.worlds[w]? | return none
  if world.maxY ≤ y ∨ world.maxX ≤ x then return none
  let b := (x + y * 100).toNat
  let block ← world.blocks[b]?
  return some (w, world, b, block)

end Position

section VendingReads

variable (env : Env) (guilds : List Guild) (w b : Nat)

/-- The buttons of the owner's dialog, which end the loop. -/
def vendButton (word : String) (block : WorldBlock) (s : Session) : Option Session :=
  if word = "addstocks" then some (Vending.addstocks env w b block s)
  else if word = "addstocks5000" then some (Vending.addstocks5000 w b block s)
  else if word = "withdraw" then some (Vending.withdraw env w b block s)
  else if word = "upgradedigital" then some s
  else if word = "pullstocks" then some (Vending.pullstocks env w b block s)
  else none

/-- One word of the owner's dialog and those behind it. -/
def vendWord (word : String) (rest : List String) (block : WorldBlock) (s : Session) :
    Option (Next Session) :=
  match Vending.checkBox word with
  | some "peritem" =>
      if block.pr < 0 then
        rest.head?.map fun next =>
          .again (if next = "1" then Vending.setPr w b (-block.pr) s else s)
      else some (.again s)
  | some "perlock" =>
      if 0 < block.pr then
        rest.head?.map fun next =>
          if next = "1" then
            if 200 < block.pr ∨ block.c_ < block.pr then .stop s
            else .again (Vending.setPr w b (-block.pr) s)
          else .again s
      else some (.again s)
  | some _ => some (.again s)
  | none =>
      if word = "setprice" then
        rest.head?.map fun next =>
          match Vending.newPrice next block with
          | some pr => .again (Vending.setPr w b pr s)
          | none => .stop s
      else
        match vendButton env w b word block s with
        | some s => some (.stop s)
        | none => some (.again s)

/-- The loop over the words. -/
def vendWords : List String → Session → Option Session
  | [], s => some s
  | word :: rest, s =>
      match s.block? w b with
      | none => some s
      | some block =>
          match vendWord env w b word rest block s with
          | none => none
          | some (.stop s) => some s
          | some (.again s) => vendWords rest s

/-- The purchase dialogs, of nineteen and of twenty-three words. -/
def buyWords (a : List String) (i : Nat) (block : WorldBlock) (s : Session) :
    Option Session := do
  let eleventh ← a[i + 11]?
  if isDigit (firstChar eleventh) = false then return s
  let eighth ← a[i + 8]?
  let fourteenth ← a[i + 14]?
  if a.length = 23 then
    let seventeenth ← a[i + 17]?
    return Vending.purchase env w b true (atoi fourteenth) (atoi seventeenth)
      (atoi eleventh) block s
  else
    return Vending.purchase env w b false (atoi eighth) (atoi eleventh)
      (atoi fourteenth) block s

/-- The branch `vending` from the machine on. -/
def vendTile (cch : String) (a : List String) (i : Nat) (access : Bool)
    (block : WorldBlock) (s : Session) : Option Session := do
  if a.length = 19 ∨ a.length = 23 then buyWords env w b a i block s
  else if access = false then return s
  else if textFind (dialogText cch) "chk_peritem|1" = true ∧
      textFind (dialogText cch) "chk_perlock|1" = true then return s
  else if a.length ≠ 13 then vendWords env w b a s
  else
    let eighth ← a[i + 8]?
    return Vending.putItem env w b (atoi eighth) block s

/-- In a message of thirteen words the item is a number. -/
def itemWord (a : List String) (i : Nat) : Option Bool :=
  if a.length = 13 then a[i + 8]?.map fun word => isDigit (firstChar word) else some true

/-- The branch `vending` behind the position. -/
def vendPlace (cch : String) (a : List String) (i : Nat) (x y : Int) (s : Session) :
    Option Session := do
  if (← itemWord a i) = false then return s
  match ← visited x y s with
  | none => return s
  | some (w, world, b, block) =>
      if isVending env.items block = false then return s
      let access ← onlyAccess env guilds s.pl world block { vend := true }
      if tooFar s.pl x y ∧ access = false then return s
      vendTile env w b cch a i access block s

/-- The branch `vending` of `call_dialog`, for the word at `i`. -/
def vending (cch : String) (i : Nat) (s : Session) : Option Session := do
  let a := dialogWords cch
  if a.length ∉ [14, 13, 20, 17, 19, 23] then return s
  match ← position a i with
  | none => return s
  | some (x, y) => vendPlace env guilds cch a i x y s

end VendingReads

section SuckerReads

variable (env : Env) (guilds : List Guild)

/-- `itemaddedtosucker` and `itemremovedfromsucker` from the machine on. -/
def suckerCount (a : List String) (i w b : Nat) (x y : Int) (block : WorldBlock)
    (s : Session) : Option Session := do
  let t := if block.fg ≠ 0 then block.fg else block.bg
  let count ← a[i + 8]?
  if isDigit (firstChar count) = false then return s
  let removing := a.getD i "" == "itemremovedfromsucker"
  if Sucker.full t block.pr = true ∧ removing = false then return s
  let changed :=
    if removing = true then Sucker.removeItem env w b block (atoi count) s
    else Sucker.addItem env w b block (atoi count) s
  match changed with
  | none => return s
  | some s => return Sucker.listMachine w b x y s

/-- The branch behind the position. -/
def suckerPlace (a : List String) (i : Nat) (x y : Int) (s : Session) :
    Option Session := do
  match ← visited x y s with
  | none => return s
  | some (w, world, b, block) =>
      -- the block of the lock is read whoever asks
      if block.locked = true ∧ (block.lockOrigin < 0 ∨
          (world.blocks.length : Int) ≤ block.lockOrigin) then failure
      if (env.items.item block.fg.toNat).blockType ≠ .sucker ∨
          Sucker.magplantAccess s.pl world block = false then return s
      suckerCount env a i w b x y block s

/-- The branch for the messages `itemaddedtosucker` and `itemremovedfromsucker`. -/
def suckerItem (a : List String) (i : Nat) (s : Session) : Option Session := do
  if a.length ≠ 13 then return s
  match ← position a i with
  | none => return s
  | some (x, y) => suckerPlace env a i x y s

/-- The machines that a device works with. -/
def remote (fg : UInt16) : Bool := [5638, 5930, 9850, 10266, 21220].contains fg

/-- `getplantationdevice`: one device replaces those that the player has. -/
def plantationDevice (x y : Int) (block : WorldBlock) (s : Session) : Session :=
  if block.id ≠ 0 ∧ remote block.fg = true then
    let asked := modify env s 5640 0 false
    let taken :=
      if asked.c_ ≠ 0 then (modify env asked.session 5640 (asked.c_ * -1) false).session
      else asked.session
    let given := modify env taken 5640 1 false
    if given.ret = 0 then
      given.session.mapPlayer fun pl =>
        { pl with magnetronId := block.id, magnetronX := x, magnetronY := y }
    else given.session
  else s

/-- `selectitem`; `none` where the branch breaks off. -/
def selectItem (w b : Nat) (item : Int) (block : WorldBlock) (s : Session) :
    Option Session :=
  let t := if block.fg ≠ 0 then block.fg else block.bg
  let kind := (env.items.item item).blockType
  if (env.items.size : Int) ≤ item then none
  else if [5638, 5930, 6948, 6946, 9850, 10266, 21220].contains t = false then some s
  else if block.pr ≠ 0 then none
  else if (t = 6948 ∧ kind = .seed) ∨ (t = 6946 ∧ kind ≠ .seed) then none
  else if (env.items.item item).untradeable = true ∨ kind = .lock then none
  else
    let item := if kind = .sucker ∨ item = 6016 ∨ item = 6952 then 0 else item
    some (s.mapBlock w b fun block => { block with id := item, enabled := true })

/-- `clearitem`: the player's device for this machine is taken as well.  The
devices of the other players are not part of a session. -/
def clearItem (w b : Nat) (x y : Int) (block : WorldBlock) (s : Session) : Session :=
  if block.id ≠ 0 ∧ block.pr = 0 then
    let device : Int := if block.fg = 5638 then 5640 else 9158
    let s :=
      if remote block.fg = true ∧ s.pl.magnetronX = x ∧ s.pl.magnetronY = y then
        let asked := modify env s device 0 false
        let taken :=
          if asked.c_ ≠ 0 then (modify env asked.session device (-asked.c_) false).session
          else asked.session
        taken.mapPlayer fun pl =>
          { pl with magnetronId := 0, magnetronX := 0, magnetronY := 0 }
      else s
    s.mapBlock w b fun block => { block with id := 0, enabled := true }
  else s

/-- One word of the message and those behind it. -/
def suckerWord (w b : Nat) (x y : Int) (word : String) (rest : List String)
    (s : Session) : Option (Next Session) :=
  match s.block? w b with
  | none => some (.stop s)
  | some block =>
      if word = "retrieveitem" ∨ word = "additem" then
        -- only a dialog is shown
        some (.stop (if block.id ≠ 0 then (modify env s block.id 0 false).session else s))
      else if word = "addstocks5000" then
        some (.stop (if s.pl.hasConfigAccess = true then
          s.mapBlock w b fun block => { block with pr := int32 (block.pr + 5000) }
        else s))
      else if word = "clearitem" then some (.stop (clearItem env w b x y block s))
      else if Vending.checkBox word = some "enablesucking" then
        rest.head?.map fun next =>
          .again (s.mapBlock w b fun block =>
            { block with enabled := next == "1" && !block.enabled })
      else some (.again s)

/-- The loop over the words. -/
def suckerWords (w b : Nat) (x y : Int) : List String → Session → Option Session
  | [], s => some s
  | word :: rest, s =>
      match suckerWord env w b x y word rest s with
      | none => none
      | some (.stop s) => some s
      | some (.again s) => suckerWords w b x y rest s

/-- The block of `itemsucker_block`, in rows of `max_x` blocks. -/
def suckerTile (x y : Int) (s : Session) :
    Option (Nat × World × Nat × WorldBlock) := do
  let w ← s.findWorld s.pl.world
  let world ← s.worlds[w]?
  let idx := x + y * world.maxX
  if world.maxY ≤ y ∨ world.maxX ≤ x ∨ idx < 0 then failure
  let block ← world.blocks[idx.toNat]?
  return (w, world, idx.toNat, block)

/-- The branch `itemsucker_block` from the machine on. -/
def suckerChange (a : List String) (i w b : Nat) (x y : Int) (block : WorldBlock)
    (s : Session) : Option Session := do
  let device ← if a.length = 14 then some true
    else a[11]?.map fun word => word == "getplantationdevice"
  if device = true then return plantationDevice env x y block s
  let selects ← if a.length = 13 then a[i + 7]?.map fun word => word == "selectitem"
    else some false
  if selects = true then
    let word ← a[i + 8]?
    if isDigit (firstChar word) = false then return s
    match selectItem env w b (atoi word) block s with
    | none => return s
    | some s => return Sucker.listMachine w b x y s
  else
    let s ← suckerWords env w b x y a s
    return Sucker.listMachine w b x y s

/-- The branch `itemsucker_block` behind the position. -/
def suckerBlockPlace (a : List String) (i : Nat) (x y : Int) (s : Session) :
    Option Session := do
  match suckerTile x y s with
  | none => return s
  | some (w, world, b, block) =>
      if (← onlyAccess env guilds s.pl world block {}) = false then return s
      if (Displays.tileItem env block).blockType ≠ .sucker then return s
      suckerChange env a i w b x y block s

/-- The branch `itemsucker_block` of `call_dialog`, for the word at `i`. -/
def suckerBlock (a : List String) (i : Nat) (s : Session) : Option Session := do
  if a.length ∉ [13, 16, 14] then return s
  match ← position a i with
  | none => return s
  | some (x, y) => suckerBlockPlace env guilds a i x y s

end SuckerReads

section Coverage

/-- The branches. -/
inductive Dialog where
  | dispshelf | mannequinEdit | vending | suckerItem | suckerBlock

def names : Dialog → List String
  | .dispshelf => ["dispshelf"]
  | .mannequinEdit => ["mannequin_edit"]
  | .vending => ["vending"]
  | .suckerItem => ["itemaddedtosucker", "itemremovedfromsucker"]
  | .suckerBlock => ["itemsucker_block"]

/-- A branch of `call_dialog` for the text `cch` and the word at `i`. -/
def callDialog (env : Env) (guilds : List Guild) (cch : String) (i : Nat) (s : Session) :
    Dialog → Option Session
  | .dispshelf => Displays.dispshelf env guilds (dialogWords cch) i s
  | .mannequinEdit => Displays.mannequinEdit env guilds (dialogWords cch) i s
  | .vending => vending env guilds cch i s
  | .suckerItem => suckerItem env (dialogWords cch) i s
  | .suckerBlock => suckerBlock env guilds (dialogWords cch) i s

/-- The size of a world. -/
structure Size where
  width : Int
  height : Int
  count : Nat

/-- A player in a world of this size, in which every locked block knows a block of
the world as its lock. -/
structure Visit (size : Size) where
  env : Env
  guilds : List Guild
  s : Session
  w : Nat
  world : World
  found : s.findWorld s.pl.world = some w
  loaded : s.worlds[w]? = some world
  width : world.maxX = size.width
  height : world.maxY = size.height
  count : world.blocks.length = size.count
  origins : ∀ block ∈ world.blocks, block.locked = true →
    0 ≤ block.lockOrigin ∧ block.lockOrigin < world.blocks.length

/-- The words of the position are there, and what follows holds for the position. -/
def Placed (a : List String) (i : Nat) (follows : Int → Int → Prop) : Prop :=
  ∃ p, position a i = some p ∧ ∀ x y, p = some (x, y) → follows x y

/-- A position of the world has a block, and what follows holds. -/
def OnTile (size : Size) (x y : Int) (follows : Prop) : Prop :=
  y < size.height → x < size.width → (x + y * 100).toNat < size.count ∧ follows

/-- The loop of `dispshelf` can come to a last word that asks for another one. -/
def shelfLooks : List String → Bool
  | [] => false
  | word :: rest =>
      match Displays.shelfNumber word with
      | some _ =>
          match rest with
          | [] => true
          | next :: _ =>
              isDigit (firstChar next) && decide (0 < atoi next) &&
                atoi next != 1424 && atoi next != 5816 && shelfLooks rest
      | none => word != "remove" && shelfLooks rest

/-- The same for `mannequin_edit`, for what the mannequin wears. -/
def mannequinLooks (worn : List UInt16) : List String → Bool → Bool
  | [], _ => false
  | word :: rest, clearAll =>
      match Displays.checkbox word with
      | some target =>
          isDigit (firstChar target) && decide (0 < atoi target) &&
            match rest with
            | [] => true
            | next :: _ =>
                (!(next == "1" || clearAll) ||
                  worn.any fun item => (item.toNat : Int) == atoi target) &&
                    mannequinLooks worn rest clearAll
      | none =>
          if word = "buttonClicked" then
            match rest with
            | [] => true
            | next :: _ => mannequinLooks worn rest (clearAll || next == "clear")
          else if word = "sign_text" then
            match rest with
            | [] => true
            | txt :: _ => decide (txt.length ≤ 128) && mannequinLooks worn rest clearAll
          else mannequinLooks worn rest clearAll

/-- The price behind one word of `vending`, for a price and a stock; `some none` where
the loop ends and `none` where the word asks for another one and is the last. -/
def vendNext (c_ : Int) (word : String) (rest : List String) (pr : Int) :
    Option (Option Int) :=
  match Vending.checkBox word with
  | some "peritem" =>
      if pr < 0 then rest.head?.map fun next => some (if next = "1" then -pr else pr)
      else some (some pr)
  | some "perlock" =>
      if 0 < pr then
        rest.head?.map fun next =>
          if next = "1" then if 200 < pr ∨ c_ < pr then none else some (-pr)
          else some pr
      else some (some pr)
  | some _ => some (some pr)
  | none =>
      if word = "setprice" then
        rest.head?.map fun next => Vending.newPrice next { pr := pr, c_ := c_ }
      else if ["addstocks", "addstocks5000", "withdraw", "upgradedigital",
          "pullstocks"].contains word then some none
      else some (some pr)

/-- The same as `shelfLooks` for `vending`. -/
def vendLooks (c_ : Int) : List String → Int → Bool
  | [], _ => false
  | word :: rest, pr =>
      match vendNext c_ word rest pr with
      | none => true
      | some none => false
      | some (some pr) => vendLooks c_ rest pr

/-- The same for `itemsucker_block`. -/
def suckerLooks : List String → Bool
  | [] => false
  | word :: rest =>
      ["retrieveitem", "additem", "addstocks5000", "clearitem"].contains word = false &&
        (Vending.checkBox word = some "enablesucking" && rest.isEmpty || suckerLooks rest)

/-- The word at a place, if it is there, starts with a digit. -/
def DigitAt (a : List String) (n : Nat) : Prop :=
  ∀ word ∈ a[n]?, isDigit (firstChar word) = true

/-- What `vending` reads behind its tile is there. -/
def VendCovered (cch : String) (a : List String) (i : Nat) : Prop :=
  if a.length = 19 ∨ a.length = 23 then
    i + 11 < a.length ∧ (DigitAt a (i + 11) → i + 14 < a.length ∧
      (a.length = 23 → i + 17 < a.length))
  else a.length = 13 ∨ (textFind (dialogText cch) "chk_peritem|1" = true ∧
      textFind (dialogText cch) "chk_perlock|1" = true) ∨
    ∀ pr c_, vendLooks c_ a pr = false

/-- What `itemsucker_block` reads behind its tile is there. -/
def SuckerCovered (a : List String) (i : Nat) : Prop :=
  a.length ≠ 14 → (∀ word ∈ a[11]?, word ≠ "getplantationdevice") →
    if a.length = 13 then
      i + 7 < a.length ∧ ∀ word ∈ a[i + 7]?,
        if word = "selectitem" then i + 8 < a.length else suckerLooks a = false
    else suckerLooks a = false

/-- No read of the branch goes behind an end, in terms of the message and of the size
of the world. -/
def Covered (size : Size) (cch : String) (i : Nat) : Dialog → Prop :=
  let a := dialogWords cch
  fun
  | .dispshelf => a.length = 13 ∨ a.length = 14 →
      Placed a i fun x y => OnTile size x y (shelfLooks a = false)
  | .mannequinEdit =>
      if a.length = 14 then
        Placed a i fun x y => i + 8 < a.length ∧
          (DigitAt a (i + 8) → (∀ word ∈ a[i + 8]?, 0 < atoi word) → OnTile size x y True)
      else
        Placed a i fun x y => (x + y * 100).toNat < size.count ∧
          ∀ mannequin, mannequinLooks (Displays.garments mannequin) a false = false
  | .vending => a.length ∈ [14, 13, 20, 17, 19, 23] →
      Placed a i fun x y => (a.length = 13 → i + 8 < a.length) ∧
        ((a.length = 13 → DigitAt a (i + 8)) → OnTile size x y (VendCovered cch a i))
  | .suckerItem => a.length = 13 →
      Placed a i fun x y => OnTile size x y (i + 8 < a.length)
  | .suckerBlock => a.length ∈ [13, 16, 14] →
      Placed a i fun x y => y < size.height → x < size.width →
        (x + y * size.width).toNat < size.count → SuckerCovered a i

end Coverage

section Visits

variable {size : Size} {a : List String} {i : Nat} {x y : Int}

theorem position_nonneg (hposition : position a i = some (some (x, y))) : 0 ≤ x ∧ 0 ≤ y := by
  unfold position at hposition
  cases htilex : a[i + 2]? with
  | none => simp [htilex] at hposition
  | some tilex =>
      cases htiley : a[i + 5]? with
      | none =>
          by_cases hx : isDigit (firstChar tilex) = false
          · simp [htilex, hx] at hposition
          · simp [htilex, htiley, hx] at hposition
      | some tiley =>
          by_cases hx : isDigit (firstChar tilex) = false
          · simp [htilex, hx] at hposition
          · by_cases hy : isDigit (firstChar tiley) = false
            · simp [htilex, htiley, hy] at hposition
            · simp [htilex, htiley, hx, hy] at hposition
              obtain ⟨rfl, rfl⟩ := hposition
              exact ⟨atoi_nonneg (Bool.eq_true_of_not_eq_false hx),
                atoi_nonneg (Bool.eq_true_of_not_eq_false hy)⟩

/-- A branch that starts with the position and gives up without one never reads
outside, exactly if the words of the position are there and what follows never does. -/
theorem inside_iff_placed {ι : Type} [hι : Nonempty ι] {start : ι → Option Session}
    {rest : ι → Int → Int → Option Session} {done : ι → Session}
    {follows : Int → Int → Prop}
    (hstart : ∀ k, start k = (do
      match ← position a i with
      | none => return done k
      | some (x, y) => rest k x y))
    (hrest : ∀ x y, 0 ≤ x → 0 ≤ y → ((∀ k, ∃ t, rest k x y = some t) ↔ follows x y)) :
    (∀ k, ∃ t, start k = some t) ↔ Placed a i follows := by
  unfold Placed
  cases hposition : position a i with
  | none =>
      rw [hposition] at hstart
      refine iff_of_false (fun h => ?_) (by rintro ⟨p, hp, -⟩; cases hp)
      obtain ⟨k⟩ := hι
      obtain ⟨t, ht⟩ := h k
      rw [hstart k] at ht
      cases ht
  | some found =>
      rw [hposition] at hstart
      cases found with
      | none =>
          refine iff_of_true (fun k => ⟨done k, hstart k⟩) ⟨none, rfl, ?_⟩
          intro x y hnone
          cases hnone
      | some place =>
          obtain ⟨x, y⟩ := place
          obtain ⟨hx, hy⟩ := position_nonneg hposition
          have hsame : (∀ k, ∃ t, start k = some t) ↔ ∀ k, ∃ t, rest k x y = some t :=
            forall_congr' fun k => by rw [hstart k]; rfl
          rw [hsame, hrest x y hx hy]
          constructor
          · intro h
            refine ⟨some (x, y), rfl, ?_⟩
            rintro x' y' ⟨⟩
            exact h
          · rintro ⟨p, hp, h⟩
            exact h x y (Option.some.inj hp).symm

theorem digitAt_iff {n : Nat} {word : String} (hword : a[n]? = some word) :
    DigitAt a n ↔ isDigit (firstChar word) = true := by
  unfold DigitAt
  rw [hword]
  simp

/-- Without a backpack nothing can be given or taken. -/
theorem modify_without (env : Env) {s : Session} (hinv : s.pl.inv = []) (id c : Int)
    (forceReturn : Bool) : modify env s id c forceReturn = ⟨-1, c, s⟩ := by
  unfold Inventory.modify modifyN modifyWith
  rw [if_pos (Or.inr (Or.inr (Or.inr (Or.inr hinv))))]

theorem Visit.visited_eq (visit : Visit size) :
    visited x y visit.s =
      if size.height ≤ y ∨ size.width ≤ x then some none
      else (visit.world.blocks[(x + y * 100).toNat]?).map fun block =>
        some (visit.w, visit.world, (x + y * 100).toNat, block) := by
  unfold visited
  simp only [visit.found, visit.loaded, visit.height, visit.width]
  split
  · rfl
  · cases visit.world.blocks[(x + y * 100).toNat]? with
    | none => rfl
    | some block => rfl

theorem Visit.block?_eq (visit : Visit size) (b : Nat) :
    visit.s.block? visit.w b = visit.world.blocks[b]? := by
  unfold Session.block?
  rw [visit.loaded]
  rfl

theorem Visit.block_there (visit : Visit size) {b : Nat} (hb : b < size.count) :
    ∃ block, visit.world.blocks[b]? = some block ∧ block ∈ visit.world.blocks := by
  rw [← visit.count] at hb
  exact ⟨visit.world.blocks[b], List.getElem?_eq_getElem hb, List.getElem_mem hb⟩

/-- The lock of a block that is there is there. -/
theorem Visit.onlyAccess_some (visit : Visit size) (env : Env) (guilds : List Guild)
    (flags : AccessFlags) {block : WorldBlock} (hblock : block ∈ visit.world.blocks) :
    ∃ access, onlyAccess env guilds visit.s.pl visit.world block flags = some access := by
  have horigin : block.locked = true →
      0 ≤ block.lockOrigin ∧ block.lockOrigin < visit.world.blocks.length := by
    intro hlocked
    have hinside := visit.origins block hblock hlocked
    have hcount := visit.count
    omega
  exact Displays.onlyAccess_some env guilds visit.s.pl flags horigin

/-- An item table in which item 0 is of one kind and all others are clothing. -/
def table (kind : BlockTypes) : Env where
  items := ⟨2 ^ 31, fun id =>
    if id = 0 then { blockType := kind } else { blockType := .clothing }⟩

/-- A visitor without a backpack in a world without an owner, all tiles of which are
like one block. -/
def Visit.stage (size : Size) (kind : BlockTypes) (block : WorldBlock)
    (hlocked : block.locked = false) : Visit size where
  env := table kind
  guilds := []
  s :=
    { pl := {}
      worlds := [{ maxX := size.width, maxY := size.height
                   blocks := List.replicate size.count block }] }
  w := 0
  world :=
    { maxX := size.width, maxY := size.height, blocks := List.replicate size.count block }
  found := rfl
  loaded := rfl
  width := rfl
  height := rfl
  count := List.length_replicate
  origins := by
    intro other hother hlock
    rw [List.eq_of_mem_replicate hother, hlocked] at hlock
    cases hlock

theorem Visit.stage_getElem? {size : Size} {kind : BlockTypes} {block : WorldBlock}
    {hlocked : block.locked = false} (b : Nat) :
    (Visit.stage size kind block hlocked).world.blocks[b]? =
      if b < size.count then some block else none :=
  List.getElem?_replicate

theorem Visit.stage_block? {size : Size} {kind : BlockTypes} {block : WorldBlock}
    {hlocked : block.locked = false} {b : Nat} (hb : b < size.count) :
    (Visit.stage size kind block hlocked).s.block? 0 b = some block := by
  change (List.replicate size.count block)[b]? = some block
  rw [List.getElem?_replicate, if_pos hb]

/-- The owner of no one's world has access without a look at a lock. -/
theorem Visit.stage_access {size : Size} {kind : BlockTypes} {block : WorldBlock}
    {hlocked : block.locked = false} (flags : AccessFlags) :
    let visit := Visit.stage size kind block hlocked
    onlyAccess visit.env visit.guilds visit.s.pl visit.world block flags = some true := by
  intro visit
  have howner : iequals visit.world.ownerName visit.s.pl.tankIDName = true := rfl
  unfold Displays.onlyAccess Displays.readsOrigin blockAccess
  rw [howner]
  rfl

instance (size : Size) : Nonempty (Visit size) :=
  ⟨Visit.stage size .foreground {} rfl⟩

end Visits

section Displays

open Displays

variable {size : Size} {a : List String} {i : Nat} {x y : Int}

theorem dispshelf_eq (env : Env) (guilds : List Guild) (s : Session)
    (hlength : a.length = 13 ∨ a.length = 14) :
    dispshelf env guilds a i s = (do
      match ← position a i with
      | none => return s
      | some (x, y) =>
          match ← displayTile env guilds true .displayShelf x y s with
          | none => return s
          | some (w, b) => shelfWords env w b a s) := by
  unfold dispshelf shelfTile position
  rw [if_neg (by omega)]
  cases a[i + 2]? with
  | none => rfl
  | some tilex =>
      by_cases hx : isDigit (firstChar tilex) = false
      · simp [hx]
      · cases a[i + 5]? with
        | none => simp [hx]
        | some tiley =>
            by_cases hy : isDigit (firstChar tiley) = false
            · simp [hy]
            · simp only [Option.bind_eq_bind, Option.bind_some, hx, hy, Option.pure_def]
              rfl

/-- The tile of a display is read inside the world. -/
theorem displayTile_inside (visit : Visit size) (bounds : Bool) (kind : BlockTypes)
    (hinside : (bounds = true → y < size.height ∧ x < size.width) →
      (x + y * 100).toNat < size.count) :
    ∃ found, displayTile visit.env visit.guilds bounds kind x y visit.s = some found := by
  unfold displayTile
  simp only [visit.found, visit.loaded, visit.height, visit.width]
  by_cases hout : bounds = true ∧ (size.height ≤ y ∨ size.width ≤ x)
  · exact ⟨none, by rw [if_pos hout]; rfl⟩
  · have hwithin : bounds = true → y < size.height ∧ x < size.width := by
      intro hbounds
      have hnot : ¬ (size.height ≤ y ∨ size.width ≤ x) := fun h => hout ⟨hbounds, h⟩
      omega
    obtain ⟨block, hblock, hmem⟩ := visit.block_there (hinside hwithin)
    obtain ⟨access, haccess⟩ := visit.onlyAccess_some visit.env visit.guilds {} hmem
    rw [if_neg hout, hblock]
    by_cases hkind : (tileItem visit.env block).blockType = kind
    · by_cases hrefused : access = false ∧
          guildAccess visit.guilds visit.s.pl visit.world.guildId = false
      · exact ⟨none, by simp [hkind, haccess, hrefused]⟩
      · exact ⟨some (visit.w, (x + y * 100).toNat), by simp [hkind, haccess, hrefused]⟩
    · exact ⟨none, by simp [hkind]⟩

theorem displayTile_within (visit : Visit size) {kind : BlockTypes} {w b : Nat}
    (hfound : displayTile visit.env visit.guilds true kind x y visit.s = some (some (w, b))) :
    y < size.height ∧ x < size.width := by
  unfold displayTile at hfound
  simp only [visit.found, visit.loaded, visit.height, visit.width] at hfound
  by_cases hout : size.height ≤ y ∨ size.width ≤ x
  · rw [if_pos ⟨trivial, hout⟩] at hfound
    cases hfound
  · omega

/-- On the stage the display is found, or read outside the world. -/
theorem displayTile_stage (bounds : Bool) (kind : BlockTypes) (block : WorldBlock)
    (hlocked : block.locked = false) (hfg : block.fg = 0) (hbg : block.bg = 0)
    (hwithin : bounds = true → y < size.height ∧ x < size.width) :
    let visit := Visit.stage size kind block hlocked
    displayTile visit.env visit.guilds bounds kind x y visit.s =
      if (x + y * 100).toNat < size.count then some (some (0, (x + y * 100).toNat))
      else none := by
  intro visit
  unfold displayTile
  simp only [visit.found, visit.loaded, visit.height, visit.width]
  rw [if_neg (by rintro ⟨hbounds, hout⟩; have := hwithin hbounds; omega)]
  have hblocks : visit.world.blocks = List.replicate size.count block := rfl
  rw [hblocks, List.getElem?_replicate]
  split_ifs with hb
  · have htile : (tileItem visit.env block).blockType = kind := by
      unfold tileItem
      rw [hfg, hbg]
      rfl
    have haccess := @Visit.stage_access size kind block hlocked {}
    simp [htile, haccess, visit]
    rfl
  · rfl

/-- The loop only goes on behind an item that can be displayed. -/
theorem replaceShelf_again {env : Env} {w b k : Nat} {next : String} {s t : Session}
    (hreplaced : replaceShelf env w b k next s = .again t) :
    isDigit (firstChar next) = true ∧ 0 < atoi next ∧ atoi next ≠ 1424 ∧
      atoi next ≠ 5816 := by
  unfold replaceShelf at hreplaced
  dsimp only at hreplaced
  split_ifs at hreplaced with hdigit hrange hdisplay
  all_goals
    have hshown : displayable env (atoi next) = true := Bool.eq_true_of_not_eq_false hdisplay
    unfold displayable at hshown
    simp only [Bool.and_eq_true, bne_iff_ne] at hshown
    exact ⟨Bool.eq_true_of_not_eq_false hdigit, by omega, hshown.1.1.2, hshown.1.2⟩

theorem shelfWords_inside (env : Env) (w b : Nat) {words : List String}
    (hlooks : shelfLooks words = false) (s : Session) :
    ∃ t, shelfWords env w b words s = some t := by
  induction words generalizing s with
  | nil => exact ⟨s, rfl⟩
  | cons word rest ih =>
      unfold shelfLooks at hlooks
      unfold shelfWords shelfWord
      cases hnumber : shelfNumber word with
      | none =>
          rw [hnumber] at hlooks
          by_cases hremove : word = "remove"
          · exact ⟨removeShelves env w b [0, 1, 2, 3] s, by simp [hremove]⟩
          · obtain ⟨t, ht⟩ := ih (by simpa [hremove] using hlooks) s
            exact ⟨t, by simpa [hremove] using ht⟩
      | some k =>
          rw [hnumber] at hlooks
          cases rest with
          | nil => cases hlooks
          | cons next rest =>
              cases hreplaced : replaceShelf env w b k next s with
              | stop t => exact ⟨t, by simp [hreplaced]⟩
              | again t =>
                  obtain ⟨hdigit, hpos, hegg, hcake⟩ := replaceShelf_again hreplaced
                  have hitem : shelfLooks (next :: rest) = false := by
                    simpa [hdigit, hpos, hegg, hcake] using hlooks
                  obtain ⟨u, hu⟩ := ih hitem t
                  exact ⟨u, by simpa [hreplaced] using hu⟩

/-- With empty shelves and no backpack a `replace` changes nothing. -/
theorem replaceShelf_stage {b k : Nat} {next : String} {s : Session}
    {block : WorldBlock} (hblock : s.block? 0 b = some block)
    (hempty : ∀ k, shelf block k = 0) (hinv : s.pl.inv = [])
    (hdigit : isDigit (firstChar next) = true) (hpos : 0 < atoi next)
    (hegg : atoi next ≠ 1424) (hcake : atoi next ≠ 5816) :
    replaceShelf (table .displayShelf) 0 b k next s = .again s := by
  have hlisted := atoi_lt next
  have hshown : displayable (table .displayShelf) (atoi next) = true := by
    have hitem : (table .displayShelf).items.item (atoi next) = { blockType := .clothing } :=
      if_neg (by omega)
    unfold displayable
    rw [hitem]
    simp [hegg, hcake]
  have hemptied : pickUp (table .displayShelf) 0 b k s = (s, true) := by
    unfold pickUp
    rw [hblock]
    exact if_pos (hempty k)
  have hfails := modify_without (table .displayShelf) hinv (atoi next) (-1) false
  have hsize : ((table .displayShelf).items.size : Int) = 2 ^ 31 := rfl
  unfold replaceShelf
  simp only [hdigit, hshown, hemptied, hfails, hsize]
  rw [if_neg (by decide), if_neg (by omega), if_neg (by decide), if_neg (by decide),
    if_neg (by decide)]

/-- There every item that can be displayed lets the loop go on. -/
theorem shelfWords_outside {words : List String} {b : Nat} {s : Session}
    {block : WorldBlock} (hblock : s.block? 0 b = some block)
    (hempty : ∀ k, shelf block k = 0) (hinv : s.pl.inv = [])
    (hlooks : shelfLooks words = true) :
    shelfWords (table .displayShelf) 0 b words s = none := by
  induction words with
  | nil => cases hlooks
  | cons word rest ih =>
      unfold shelfLooks at hlooks
      unfold shelfWords shelfWord
      cases hnumber : shelfNumber word with
      | none =>
          rw [hnumber, Bool.and_eq_true, bne_iff_ne] at hlooks
          rw [if_neg hlooks.1]
          exact ih hlooks.2
      | some k =>
          rw [hnumber] at hlooks
          cases rest with
          | nil => rfl
          | cons next rest =>
              simp only [Bool.and_eq_true, decide_eq_true_eq, bne_iff_ne] at hlooks
              obtain ⟨⟨⟨⟨hdigit, hpos⟩, hegg⟩, hcake⟩, hrest⟩ := hlooks
              have hreplaced := @replaceShelf_stage b k next s block hblock hempty hinv hdigit
                hpos hegg hcake
              simp only [List.head?_cons, Option.map_some, hreplaced]
              exact ih hrest

/-- `dispshelf` reads inside exactly where the words of the position are there, the tile
is there, and no `replace` that the loop comes to is the last word. -/
theorem dispshelf_inside_iff (size : Size) (a : List String) (i : Nat)
    (hlength : a.length = 13 ∨ a.length = 14) :
    (∀ visit : Visit size, ∃ t, dispshelf visit.env visit.guilds a i visit.s = some t) ↔
      Placed a i fun x y => OnTile size x y (shelfLooks a = false) := by
  refine inside_iff_placed
    (fun visit : Visit size => dispshelf_eq visit.env visit.guilds visit.s hlength)
    fun x y hleft htop => ?_
  unfold OnTile
  constructor
  · intro h hy hx
    obtain ⟨t, ht⟩ := h (Visit.stage size .displayShelf {} rfl)
    have hstage := @displayTile_stage size x y true .displayShelf {} rfl rfl rfl
      fun _ => ⟨hy, hx⟩
    dsimp only at hstage
    rw [hstage] at ht
    by_cases hb : (x + y * 100).toNat < size.count
    · refine ⟨hb, Bool.eq_false_of_not_eq_true fun hlooks => ?_⟩
      rw [if_pos hb] at ht
      have hempty : ∀ k, shelf {} k = 0 := by
        intro k
        unfold shelf
        split <;> rfl
      have hblock := @Visit.stage_block? size .displayShelf {} rfl _ hb
      have hnone := shelfWords_outside hblock hempty rfl hlooks
      exact absurd (hnone.symm.trans ht) (by simp)
    · rw [if_neg hb] at ht
      cases ht
  · intro h visit
    obtain ⟨found, hfound⟩ := displayTile_inside visit true .displayShelf fun hwithin =>
      (h (hwithin rfl).1 (hwithin rfl).2).1
    rw [hfound]
    cases found with
    | none => exact ⟨_, rfl⟩
    | some place =>
        obtain ⟨hdown, hleft⟩ := displayTile_within visit hfound
        exact shelfWords_inside visit.env place.1 place.2 (h hdown hleft).2 visit.s

/-- The mannequin of a tile wears none but these. -/
def Wears (worn : List UInt16) (w b : Nat) (s : Session) : Prop :=
  ∃ block, s.block? w b = some block ∧
    ∀ item ∈ garments block.mannequin, item = 0 ∨ item ∈ worn

theorem Wears.modify {worn : List UInt16} {w b : Nat} {s : Session}
    (hwears : Wears worn w b s) (env : Env) (id c : Int) (forceReturn : Bool) :
    Wears worn w b (Inventory.modify env s id c forceReturn).session := by
  obtain ⟨block, hblock, hworn⟩ := hwears
  exact ⟨block, (Sucker.block?_congr (modify_tiles env s id c forceReturn)).trans hblock,
    hworn⟩

theorem Wears.mapBlock {worn : List UInt16} {w b : Nat} {s : Session}
    (hwears : Wears worn w b s) {f : WorldBlock → WorldBlock}
    (hf : ∀ block, ∀ item ∈ garments (f block).mannequin,
      item = 0 ∨ item ∈ garments block.mannequin) :
    Wears worn w b (s.mapBlock w b f) := by
  obtain ⟨block, hblock, hworn⟩ := hwears
  refine ⟨f block, Session.block?_mapBlock hblock f, fun item hitem => ?_⟩
  exact (hf block item hitem).elim Or.inl (hworn item)

theorem garments_undress (mannequin : Mannequin) (clothingType : Int) {item : UInt16}
    (hitem : item ∈ garments (dress mannequin clothingType 0)) :
    item = 0 ∨ item ∈ garments mannequin := by
  by_cases hkind : 0 ≤ clothingType ∧ clothingType ≤ 8
  · rw [garments_dress hkind.1 hkind.2] at hitem
    exact (List.mem_or_eq_of_mem_set hitem).symm
  · rw [dress_other hkind] at hitem
    exact Or.inr hitem

/-- The loop only goes on behind a garment that the mannequin wears. -/
theorem removeGarment_again {env : Env} {worn : List UInt16} {w b : Nat} {s t : Session}
    {itemRemove : Int} (hwears : Wears worn w b s) (hpos : 0 < itemRemove)
    (hremoved : removeGarment env w b itemRemove s = .again t) :
    (worn.any fun item => (item.toNat : Int) == itemRemove) = true ∧ Wears worn w b t := by
  have hwears' := hwears
  obtain ⟨block, hblock, hworn⟩ := hwears
  unfold removeGarment at hremoved
  rw [hblock] at hremoved
  dsimp only at hremoved
  by_cases hnone : ∀ item ∈ garments block.mannequin, (item.toNat : Int) ≠ itemRemove
  · rw [if_pos hnone] at hremoved
    cases hremoved
  · rw [if_neg hnone] at hremoved
    have hafter := hwears'.modify env itemRemove 1 false
    constructor
    · obtain ⟨item, hitem, heq⟩ : ∃ item ∈ garments block.mannequin,
          (item.toNat : Int) = itemRemove := by
        simpa only [not_forall, not_not, exists_prop] using hnone
      refine List.any_eq_true.mpr ⟨item, ?_, beq_iff_eq.mpr heq⟩
      refine (hworn item hitem).resolve_left fun hzero => ?_
      have hnothing : ((0 : UInt16).toNat : Int) = 0 := rfl
      rw [hzero] at heq
      omega
    · split_ifs at hremoved with hgiven
      · cases hremoved
        exact hafter.mapBlock fun block item => garments_undress block.mannequin _
      · cases hremoved
        exact hafter

theorem mannequinWords_inside (env : Env) {worn : List UInt16} {w b : Nat}
    {words : List String} {clearAll : Bool}
    (hlooks : mannequinLooks worn words clearAll = false) {s : Session}
    (hwears : Wears worn w b s) :
    ∃ t, mannequinWords env w b words clearAll s = some t := by
  induction words generalizing clearAll s with
  | nil => exact ⟨s, rfl⟩
  | cons word rest ih =>
      unfold mannequinLooks at hlooks
      unfold mannequinWords mannequinWord
      cases hbox : checkbox word with
      | some target =>
          rw [hbox] at hlooks
          dsimp only at hlooks ⊢
          by_cases hdigit : isDigit (firstChar target) = false
          · exact ⟨s, by rw [if_pos hdigit]⟩
          · rw [if_neg hdigit]
            by_cases hrange : atoi target ≤ 0 ∨ env.items.size ≤ atoi target
            · exact ⟨s, by rw [if_pos hrange]⟩
            · rw [if_neg hrange]
              have hpos : 0 < atoi target := by omega
              simp only [Bool.eq_true_of_not_eq_false hdigit, hpos, decide_true,
                Bool.true_and] at hlooks
              cases rest with
              | nil => cases hlooks
              | cons next rest =>
                  rw [List.head?_cons, Option.map_some]
                  dsimp only at hlooks
                  by_cases hchecked : next = "1" ∨ clearAll = true
                  · rw [if_pos hchecked]
                    cases hremoved : removeGarment env w b (atoi target) s with
                    | stop t => exact ⟨t, rfl⟩
                    | again t =>
                        obtain ⟨hany, hafter⟩ := removeGarment_again hwears hpos hremoved
                        have hrest : mannequinLooks worn (next :: rest) clearAll = false := by
                          simpa only [hany, Bool.or_true, Bool.true_and] using hlooks
                        exact ih hrest hafter
                  · rw [if_neg hchecked]
                    have hbox : (next == "1" || clearAll) = false := by
                      simpa using hchecked
                    have hrest : mannequinLooks worn (next :: rest) clearAll = false := by
                      simpa only [hbox, Bool.not_false, Bool.true_or, Bool.true_and] using hlooks
                    exact ih hrest hwears
      | none =>
          rw [hbox] at hlooks
          dsimp only at hlooks ⊢
          by_cases hclear : word = "buttonClicked"
          · rw [if_pos hclear] at hlooks ⊢
            cases rest with
            | nil => cases hlooks
            | cons next rest => exact ih hlooks hwears
          · rw [if_neg hclear] at hlooks ⊢
            by_cases htext : word = "sign_text"
            · rw [if_pos htext] at hlooks ⊢
              cases rest with
              | nil => cases hlooks
              | cons txt rest =>
                  rw [List.head?_cons, Option.map_some]
                  by_cases hlong : 128 < txt.length
                  · exact ⟨s, by rw [if_pos hlong]⟩
                  · rw [if_neg hlong]
                    have hrest : mannequinLooks worn (txt :: rest) clearAll = false := by
                      simpa [Nat.le_of_not_lt hlong] using hlooks
                    exact ih hrest (hwears.mapBlock fun _ _ hitem => Or.inr hitem)
            · rw [if_neg htext] at hlooks ⊢
              exact ih hlooks hwears

/-- Without a backpack a garment that is taken off stays on, and the loop goes on. -/
theorem removeGarment_stage {kind : BlockTypes} {b : Nat} {s : Session} {itemRemove : Int}
    {block : WorldBlock} (hblock : s.block? 0 b = some block) (hinv : s.pl.inv = [])
    (hworn : (garments block.mannequin).any (fun item => (item.toNat : Int) == itemRemove) =
      true) :
    removeGarment (table kind) 0 b itemRemove s = .again s := by
  obtain ⟨item, hitem, heq⟩ := List.any_eq_true.mp hworn
  unfold removeGarment
  simp only [hblock, modify_without (table kind) hinv itemRemove 1 false]
  rw [if_neg fun hnone => hnone item hitem (beq_iff_eq.mp heq), if_neg (by decide)]

theorem mannequinWords_outside {kind : BlockTypes} {b : Nat} {words : List String}
    {clearAll : Bool} {s : Session} {block : WorldBlock}
    (hblock : s.block? 0 b = some block) (hinv : s.pl.inv = [])
    (hlooks : mannequinLooks (garments block.mannequin) words clearAll = true) :
    mannequinWords (table kind) 0 b words clearAll s = none := by
  induction words generalizing clearAll s block with
  | nil => cases hlooks
  | cons word rest ih =>
      unfold mannequinLooks at hlooks
      unfold mannequinWords mannequinWord
      cases hbox : checkbox word with
      | some target =>
          rw [hbox] at hlooks
          simp only [Bool.and_eq_true, decide_eq_true_eq] at hlooks
          obtain ⟨⟨hdigit, hpos⟩, hlooks⟩ := hlooks
          have hsize : ((table kind).items.size : Int) = 2 ^ 31 := rfl
          have hlisted := atoi_lt target
          dsimp only
          rw [hdigit, if_neg (by decide), if_neg (by omega)]
          cases rest with
          | nil => rfl
          | cons next rest =>
              obtain ⟨hworn, hrest⟩ := Bool.and_eq_true_iff.mp hlooks
              rw [List.head?_cons, Option.map_some]
              by_cases hchecked : next = "1" ∨ clearAll = true
              · have hbox : (next == "1" || clearAll) = true := by simpa using hchecked
                rw [hbox] at hworn
                rw [if_pos hchecked, removeGarment_stage hblock hinv hworn]
                exact ih hblock hinv hrest
              · rw [if_neg hchecked]
                exact ih hblock hinv hrest
      | none =>
          rw [hbox] at hlooks
          dsimp only at hlooks ⊢
          by_cases hclear : word = "buttonClicked"
          · rw [if_pos hclear] at hlooks ⊢
            cases rest with
            | nil => rfl
            | cons next rest => exact ih hblock hinv hlooks
          · rw [if_neg hclear] at hlooks ⊢
            by_cases htext : word = "sign_text"
            · rw [if_pos htext] at hlooks ⊢
              cases rest with
              | nil => rfl
              | cons txt rest =>
                  obtain ⟨hshort, hrest⟩ := Bool.and_eq_true_iff.mp hlooks
                  rw [List.head?_cons, Option.map_some,
                    if_neg (Nat.not_lt.mpr (of_decide_eq_true hshort))]
                  exact ih (Session.block?_mapBlock hblock _) hinv hrest
            · rw [if_neg htext] at hlooks ⊢
              exact ih hblock hinv hlooks

/-- The tile of `mannequin_edit`, and what follows for the garment or for the loop. -/
theorem mannequinEdit_eq (env : Env) (guilds : List Guild) (s : Session)
    (hlength : a.length ≠ 14) :
    mannequinEdit env guilds a i s = (do
      match ← position a i with
      | none => return s
      | some (x, y) =>
          match ← displayTile env guilds false .mannequin x y s with
          | none => return s
          | some (w, b) => mannequinWords env w b a false s) := by
  unfold mannequinEdit editTile position
  rw [if_neg hlength]
  cases a[i + 2]? with
  | none => rfl
  | some tilex =>
      by_cases hx : isDigit (firstChar tilex) = false
      · simp [hx]
      · cases a[i + 5]? with
        | none => simp [hx]
        | some tiley =>
            by_cases hy : isDigit (firstChar tiley) = false
            · simp [hy]
            · simp only [Option.bind_eq_bind, Option.bind_some, hx, hy, Option.pure_def]
              rfl

/-- A message of fourteen words behind the position. -/
def garmentTile (env : Env) (guilds : List Guild) (a : List String) (i : Nat) (x y : Int)
    (s : Session) : Option Session := do
  let word ← a[i + 8]?
  if isDigit (firstChar word) = false then return s
  let tile := atoi word
  if tile ≤ 0 ∨ env.items.size ≤ tile then return s
  let item := env.items.item tile
  if item.blockType ≠ .clothing ∨ item.untradeable = true ∨ item.clothType = .ances then
    return s
  match ← displayTile env guilds true .mannequin x y s with
  | none => return s
  | some (w, b) => return putGarment env w b tile s

theorem mannequinEdit_put_eq (env : Env) (guilds : List Guild) (s : Session)
    (hlength : a.length = 14) :
    mannequinEdit env guilds a i s = (do
      match ← position a i with
      | none => return s
      | some (x, y) => garmentTile env guilds a i x y s) := by
  unfold mannequinEdit putTile position garmentTile
  rw [if_pos hlength]
  cases a[i + 2]? with
  | none => rfl
  | some tilex =>
      by_cases hx : isDigit (firstChar tilex) = false
      · simp [hx]
      · cases a[i + 5]? with
        | none => simp [hx]
        | some tiley =>
            by_cases hy : isDigit (firstChar tiley) = false
            · simp [hy]
            · cases a[i + 8]? with
              | none => simp [hx, hy]
              | some word =>
                  by_cases hword : isDigit (firstChar word) = false
                  · simp [hx, hy, hword]
                  · by_cases hrange : atoi word ≤ 0 ∨ env.items.size ≤ atoi word
                    · simp [hx, hy, hword, hrange]
                    · simp only [hx, hy, hword, hrange, Bool.true_eq_false, if_false,
                        Option.bind_eq_bind, Option.bind_some, Option.pure_def]
                      split_ifs
                      · rfl
                      · cases displayTile env guilds true .mannequin (atoi tilex)
                          (atoi tiley) s with
                        | none => rfl
                        | some found => cases found <;> rfl

theorem mannequinEdit_inside_iff (size : Size) (a : List String) (i : Nat)
    (hlength : a.length ≠ 14) :
    (∀ visit : Visit size, ∃ t,
        mannequinEdit visit.env visit.guilds a i visit.s = some t) ↔
      Placed a i fun x y => (x + y * 100).toNat < size.count ∧
        ∀ mannequin, mannequinLooks (garments mannequin) a false = false := by
  refine inside_iff_placed
    (fun visit : Visit size => mannequinEdit_eq visit.env visit.guilds visit.s hlength)
    fun x y hleft htop => ?_
  constructor
  · intro h
    have hthere : ∀ mannequin, (x + y * 100).toNat < size.count ∧
        mannequinLooks (garments mannequin) a false = false := by
      intro mannequin
      obtain ⟨t, ht⟩ := h (Visit.stage size .mannequin { mannequin := mannequin } rfl)
      have hstage := @displayTile_stage size x y false .mannequin { mannequin := mannequin }
        rfl rfl rfl (fun hbounds => by cases hbounds)
      dsimp only at hstage
      rw [hstage] at ht
      by_cases hb : (x + y * 100).toNat < size.count
      · refine ⟨hb, Bool.eq_false_of_not_eq_true fun hlooks => ?_⟩
        rw [if_pos hb] at ht
        have hblock := @Visit.stage_block? size .mannequin { mannequin := mannequin } rfl _ hb
        have hnone := @mannequinWords_outside .mannequin _ _ _ _ _ hblock rfl hlooks
        exact absurd (hnone.symm.trans ht) (by simp)
      · rw [if_neg hb] at ht
        cases ht
    exact ⟨(hthere {}).1, fun mannequin => (hthere mannequin).2⟩
  · rintro ⟨hb, hlooks⟩ visit
    obtain ⟨found, hfound⟩ := displayTile_inside visit false .mannequin fun _ => hb
    rw [hfound]
    cases found with
    | none => exact ⟨_, rfl⟩
    | some place =>
        obtain ⟨block, hblock⟩ := displayTile_found hfound
        have hwears : Wears (garments block.mannequin) place.1 place.2 visit.s :=
          ⟨block, hblock, fun item hitem => Or.inr hitem⟩
        exact mannequinWords_inside visit.env (hlooks block.mannequin) hwears

theorem mannequinPut_inside_iff (size : Size) (a : List String) (i : Nat)
    (hlength : a.length = 14) :
    (∀ visit : Visit size, ∃ t,
        mannequinEdit visit.env visit.guilds a i visit.s = some t) ↔
      Placed a i fun x y => i + 8 < a.length ∧
        (DigitAt a (i + 8) → (∀ word ∈ a[i + 8]?, 0 < atoi word) →
          OnTile size x y True) := by
  refine inside_iff_placed
    (fun visit : Visit size => mannequinEdit_put_eq visit.env visit.guilds visit.s hlength)
    fun x y hleft htop => ?_
  unfold garmentTile OnTile
  cases hword : a[i + 8]? with
  | none =>
      have hlast := List.getElem?_eq_none_iff.mp hword
      refine iff_of_false (fun h => ?_) fun h => by omega
      obtain ⟨t, ht⟩ := h (Visit.stage size .mannequin {} rfl)
      cases ht
  | some word =>
      obtain ⟨hlast, -⟩ := List.getElem?_eq_some_iff.mp hword
      simp only [digitAt_iff hword, Option.mem_some, forall_eq']
      by_cases hdigit : isDigit (firstChar word) = false
      · refine iff_of_true (fun visit => ⟨visit.s, by simp [hdigit]⟩) ⟨hlast, fun h => ?_⟩
        rw [hdigit] at h
        cases h
      · by_cases hpos : 0 < atoi word
        · constructor
          · intro h
            refine ⟨hlast, fun _ _ hy hx => ⟨?_, trivial⟩⟩
            obtain ⟨t, ht⟩ := h (Visit.stage size .mannequin {} rfl)
            have hstage := @displayTile_stage size x y true .mannequin {} rfl rfl rfl
              fun _ => ⟨hy, hx⟩
            dsimp only at hstage
            have hsize : ((Visit.stage size .mannequin {} rfl).env.items.size : Int) = 2 ^ 31 :=
              rfl
            have hlisted := atoi_lt word
            have hitem : (Visit.stage size .mannequin {} rfl).env.items.item (atoi word) =
                { blockType := .clothing } := if_neg (by omega)
            have hrange : ¬ (atoi word ≤ 0 ∨
                (Visit.stage size .mannequin {} rfl).env.items.size ≤ atoi word) := by omega
            simp only [Option.bind_eq_bind, Option.bind_some, hdigit, Bool.true_eq_false,
              if_false, hrange, hitem, hstage] at ht
            by_contra hb
            rw [if_neg hb] at ht
            rw [if_neg (by decide)] at ht
            cases ht
          · rintro ⟨-, h⟩ visit
            obtain ⟨found, hfound⟩ := displayTile_inside visit true .mannequin fun hwithin =>
              (h (Bool.eq_true_of_not_eq_false hdigit) hpos (hwithin rfl).1 (hwithin rfl).2).1
            simp only [Option.bind_eq_bind, Option.bind_some, hdigit, Bool.true_eq_false,
              if_false, hfound]
            split_ifs
            · exact ⟨_, rfl⟩
            · exact ⟨_, rfl⟩
            · cases found with
              | none => exact ⟨_, rfl⟩
              | some place => exact ⟨_, rfl⟩
        · refine iff_of_true (fun visit => ⟨visit.s, ?_⟩) ⟨hlast, fun _ h => absurd h hpos⟩
          simp [hdigit, not_lt.mp hpos]

end Displays

section VendingWords

variable {size : Size} {cch : String} {a : List String} {i : Nat} {x y : Int}

theorem vendButton_eq_none_iff (env : Env) (w b : Nat) {word : String} (block : WorldBlock)
    (s : Session) :
    vendButton env w b word block s = none ↔
      ["addstocks", "addstocks5000", "withdraw", "upgradedigital", "pullstocks"].contains
        word = false := by
  unfold vendButton
  simp only [List.contains_cons, List.contains_nil, Bool.or_false, Bool.or_eq_false_iff,
    beq_eq_false_iff_ne]
  split_ifs <;> simp_all

/-- What one word does with the price. -/
theorem vendWord_next (env : Env) {w b : Nat} {s : Session} {block : WorldBlock}
    (hblock : s.block? w b = some block) (word : String) (rest : List String) :
    match vendNext block.c_ word rest block.pr with
    | none => vendWord env w b word rest block s = none
    | some none => ∃ t, vendWord env w b word rest block s = some (.stop t)
    | some (some pr) => ∃ t, vendWord env w b word rest block s = some (.again t) ∧
        t.block? w b = some { block with pr := pr } := by
  have hset : ∀ pr, (Vending.setPr w b pr s).block? w b = some { block with pr := pr } :=
    fun pr => Session.block?_mapBlock hblock fun block => { block with pr := pr }
  unfold vendNext vendWord
  by_cases hitem : Vending.checkBox word = some "peritem"
  · rw [hitem]
    by_cases hpr : block.pr < 0
    · simp only [if_pos hpr]
      cases rest with
      | nil => rfl
      | cons next rest =>
          by_cases hone : next = "1"
          · simp only [List.head?_cons, Option.map_some, if_pos hone]
            exact ⟨_, rfl, hset _⟩
          · simp only [List.head?_cons, Option.map_some, if_neg hone]
            exact ⟨s, rfl, hblock⟩
    · simp only [if_neg hpr]
      exact ⟨s, rfl, hblock⟩
  · by_cases hlock : Vending.checkBox word = some "perlock"
    · rw [hlock]
      by_cases hpr : 0 < block.pr
      · simp only [if_pos hpr]
        cases rest with
        | nil => rfl
        | cons next rest =>
            by_cases hone : next = "1"
            · by_cases hlow : 200 < block.pr ∨ block.c_ < block.pr
              · simp only [List.head?_cons, Option.map_some, if_pos hone, if_pos hlow]
                exact ⟨s, rfl⟩
              · simp only [List.head?_cons, Option.map_some, if_pos hone, if_neg hlow]
                exact ⟨_, rfl, hset _⟩
            · simp only [List.head?_cons, Option.map_some, if_neg hone]
              exact ⟨s, rfl, hblock⟩
      · simp only [if_neg hpr]
        exact ⟨s, rfl, hblock⟩
    · cases hbox : Vending.checkBox word with
      | some target =>
          have hitem' : target ≠ "peritem" := fun h => hitem (by rw [hbox, h])
          have hlock' : target ≠ "perlock" := fun h => hlock (by rw [hbox, h])
          simp only
          exact ⟨s, rfl, hblock⟩
      | none =>
          dsimp only
          by_cases hprice : word = "setprice"
          · simp only [if_pos hprice]
            cases rest with
            | nil => rfl
            | cons next rest =>
                have hsame : Vending.newPrice next block =
                    Vending.newPrice next { pr := block.pr, c_ := block.c_ } := rfl
                simp only [List.head?_cons, Option.map_some, hsame]
                cases Vending.newPrice next { pr := block.pr, c_ := block.c_ } with
                | none => exact ⟨s, rfl⟩
                | some pr => exact ⟨_, rfl, hset pr⟩
          · simp only [if_neg hprice]
            cases hbutton : vendButton env w b word block s with
            | none =>
                rw [vendButton_eq_none_iff] at hbutton
                rw [hbutton]
                exact ⟨s, rfl, hblock⟩
            | some t =>
                have hname := (vendButton_eq_none_iff env w b block s).not.mp
                  (by rw [hbutton]; simp)
                rw [Bool.not_eq_false] at hname
                rw [hname]
                exact ⟨t, rfl⟩

/-- The loop reads behind the last word exactly where the words, the price and the stock
say so. -/
theorem vendWords_eq_none_iff (env : Env) {w b : Nat} {words : List String} {s : Session}
    {block : WorldBlock} (hblock : s.block? w b = some block) :
    vendWords env w b words s = none ↔ vendLooks block.c_ words block.pr = true := by
  induction words generalizing s block with
  | nil => simp [vendWords, vendLooks]
  | cons word rest ih =>
      have hnext := vendWord_next env hblock word rest
      unfold vendWords vendLooks
      rw [hblock]
      dsimp only
      cases hprice : vendNext block.c_ word rest block.pr with
      | none =>
          rw [hprice] at hnext
          simp [hnext]
      | some found =>
          rw [hprice] at hnext
          cases found with
          | none =>
              obtain ⟨t, ht⟩ := hnext
              simp [ht]
          | some pr =>
              obtain ⟨t, ht, htile⟩ := hnext
              rw [ht]
              exact ih htile

theorem buyWords_inside_iff (env : Env) (w b : Nat) (block : WorldBlock) (s : Session)
    (hlength : a.length = 19 ∨ a.length = 23) :
    (∃ t, buyWords env w b a i block s = some t) ↔ VendCovered cch a i := by
  unfold buyWords VendCovered
  rw [if_pos hlength]
  cases heleventh : a[i + 11]? with
  | none =>
      have hlast := List.getElem?_eq_none_iff.mp heleventh
      exact iff_of_false (by simp) (by omega)
  | some eleventh =>
      obtain ⟨hlast, -⟩ := List.getElem?_eq_some_iff.mp heleventh
      rw [digitAt_iff heleventh]
      have heighth := List.getElem?_eq_getElem (l := a) (i := i + 8) (by omega)
      by_cases hdigit : isDigit (firstChar eleventh) = false
      · simp [hdigit, hlast]
      · have hnumber := Bool.eq_true_of_not_eq_false hdigit
        cases hfourteenth : a[i + 14]? with
        | none =>
            have hmissing := List.getElem?_eq_none_iff.mp hfourteenth
            refine iff_of_false ?_ fun h => absurd (h.2 hnumber).1 (by omega)
            simp [hnumber, heighth]
        | some fourteenth =>
            obtain ⟨hthere, -⟩ := List.getElem?_eq_some_iff.mp hfourteenth
            by_cases hconfirm : a.length = 23
            · cases hseventeenth : a[i + 17]? with
              | none =>
                  have hmissing := List.getElem?_eq_none_iff.mp hseventeenth
                  refine iff_of_false ?_ fun h => absurd ((h.2 hnumber).2 hconfirm) (by omega)
                  simp [hnumber, heighth, hconfirm]
              | some seventeenth =>
                  obtain ⟨hlater, -⟩ := List.getElem?_eq_some_iff.mp hseventeenth
                  refine iff_of_true ?_ ⟨hlast, fun _ => ⟨hthere, fun _ => hlater⟩⟩
                  simp [hnumber, heighth, hconfirm]
            · refine iff_of_true ?_ ⟨hlast, fun _ => ⟨hthere, fun h => absurd h hconfirm⟩⟩
              simp [hnumber, heighth, hconfirm]

/-- What is there is found, whatever the machine holds. -/
theorem vendTile_inside (env : Env) {w b : Nat} {s : Session} {block : WorldBlock}
    (access : Bool) (hitem : a.length = 13 → i + 8 < a.length)
    (hcovered : VendCovered cch a i) (hblock : s.block? w b = some block) :
    ∃ t, vendTile env w b cch a i access block s = some t := by
  unfold vendTile
  by_cases hbuy : a.length = 19 ∨ a.length = 23
  · rw [if_pos hbuy]
    exact (buyWords_inside_iff env w b block s hbuy).mpr hcovered
  · rw [if_neg hbuy]
    by_cases haccess : access = false
    · exact ⟨s, by rw [if_pos haccess]; rfl⟩
    · rw [if_neg haccess]
      by_cases hboth : textFind (dialogText cch) "chk_peritem|1" = true ∧
          textFind (dialogText cch) "chk_perlock|1" = true
      · exact ⟨s, by rw [if_pos hboth]; rfl⟩
      · rw [if_neg hboth]
        by_cases hput : a.length = 13
        · rw [if_neg (not_not.mpr hput), List.getElem?_eq_getElem (hitem hput)]
          exact ⟨_, rfl⟩
        · rw [if_pos hput]
          unfold VendCovered at hcovered
          rw [if_neg hbuy] at hcovered
          have hlooks := (hcovered.resolve_left hput).resolve_left hboth
          refine Option.ne_none_iff_exists'.mp fun hnone => ?_
          rw [vendWords_eq_none_iff env hblock, hlooks] at hnone
          cases hnone

/-- What is missing is missed by a machine of some price and stock. -/
theorem vendTile_outside (hcovered : ¬ VendCovered cch a i) :
    ∃ pr c_, ∀ env w b (s : Session), s.block? w b = some { pr := pr, c_ := c_ } →
      vendTile env w b cch a i true { pr := pr, c_ := c_ } s = none := by
  unfold vendTile
  by_cases hbuy : a.length = 19 ∨ a.length = 23
  · refine ⟨0, 0, fun env w b s _ => ?_⟩
    rw [if_pos hbuy]
    rw [← buyWords_inside_iff env w b _ s hbuy] at hcovered
    exact Option.eq_none_iff_forall_ne_some.mpr fun t ht => hcovered ⟨t, ht⟩
  · unfold VendCovered at hcovered
    rw [if_neg hbuy] at hcovered
    simp only [not_or, not_forall, Bool.not_eq_false] at hcovered
    obtain ⟨hput, hboth, pr, c_, hlooks⟩ := hcovered
    refine ⟨pr, c_, fun env w b s hblock => ?_⟩
    rw [if_neg hbuy, if_neg (by decide), if_neg hboth, if_pos hput]
    exact (vendWords_eq_none_iff env hblock).mpr hlooks

/-- The branch behind the position, with the word of the item settled. -/
theorem vendPlace_inside_iff (size : Size) (cch : String) (a : List String) (i : Nat)
    (x y : Int) :
    (∀ visit : Visit size, ∃ t,
        vendPlace visit.env visit.guilds cch a i x y visit.s = some t) ↔
      (a.length = 13 → i + 8 < a.length) ∧
        ((a.length = 13 → DigitAt a (i + 8)) →
          OnTile size x y (VendCovered cch a i)) := by
  unfold vendPlace
  cases hitem : itemWord a i with
  | none =>
      unfold itemWord at hitem
      split_ifs at hitem with hlength
      have hmissing := List.getElem?_eq_none_iff.mp (Option.map_eq_none_iff.mp hitem)
      refine iff_of_false (fun h => ?_) fun h => absurd (h.1 hlength) (by omega)
      obtain ⟨t, ht⟩ := h (Visit.stage size .vending {} rfl)
      cases ht
  | some number =>
      have hthere : a.length = 13 → i + 8 < a.length ∧
          (DigitAt a (i + 8) ↔ number = true) := by
        intro hlength
        unfold itemWord at hitem
        rw [if_pos hlength] at hitem
        obtain ⟨word, hword, hnumber⟩ := Option.map_eq_some_iff.mp hitem
        exact ⟨(List.getElem?_eq_some_iff.mp hword).1, by rw [digitAt_iff hword, hnumber]⟩
      cases number with
      | false =>
          have hlength : a.length = 13 := by
            by_contra hlength
            unfold itemWord at hitem
            rw [if_neg hlength] at hitem
            cases hitem
          refine iff_of_true (fun visit => ⟨visit.s, by simp⟩)
            ⟨fun h => (hthere h).1, fun hdigit => ?_⟩
          cases (hthere hlength).2.mp (hdigit hlength)
      | true =>
          have hdigit : a.length = 13 → DigitAt a (i + 8) := fun h => (hthere h).2.mpr rfl
          rw [and_iff_right fun h => (hthere h).1, forall_prop_of_true hdigit]
          unfold OnTile
          constructor
          · intro h hy hx
            have hwithin : ¬ (size.height ≤ y ∨ size.width ≤ x) := by omega
            have hb : (x + y * 100).toNat < size.count := by
              obtain ⟨t, ht⟩ := h (Visit.stage size .vending {} rfl)
              rw [Visit.visited_eq, if_neg hwithin] at ht
              by_contra hb
              rw [Visit.stage_getElem?, if_neg hb] at ht
              simp at ht
            refine ⟨hb, ?_⟩
            by_contra hcovered
            obtain ⟨pr, c_, hnone⟩ := vendTile_outside hcovered
            obtain ⟨t, ht⟩ := h (Visit.stage size .vending { pr := pr, c_ := c_ } rfl)
            have haccess := @Visit.stage_access size .vending { pr := pr, c_ := c_ } rfl
              { vend := true }
            rw [Visit.visited_eq, if_neg hwithin, Visit.stage_getElem?, if_pos hb] at ht
            have hkind : isVending (Visit.stage size .vending
                { pr := pr, c_ := c_ } rfl).env.items { pr := pr, c_ := c_ } = true := rfl
            have htile := hnone (Visit.stage size .vending { pr := pr, c_ := c_ } rfl).env
              (Visit.stage size .vending { pr := pr, c_ := c_ } rfl).w _ _
              (@Visit.stage_block? size .vending { pr := pr, c_ := c_ } rfl _ hb)
            simp [hkind, haccess, htile] at ht
          · intro h visit
            rw [Visit.visited_eq]
            by_cases hout : size.height ≤ y ∨ size.width ≤ x
            · exact ⟨visit.s, by simp [hout]⟩
            · obtain ⟨hb, hcovered⟩ := h (by omega) (by omega)
              obtain ⟨block, hblock, hmem⟩ := visit.block_there hb
              obtain ⟨access, haccess⟩ :=
                visit.onlyAccess_some visit.env visit.guilds { vend := true } hmem
              obtain ⟨t, ht⟩ := vendTile_inside visit.env access (fun h => (hthere h).1) hcovered
                ((visit.block?_eq _).trans hblock)
              rw [if_neg hout, hblock]
              by_cases hkind : isVending visit.env.items block = false
              · exact ⟨visit.s, by simp [hkind]⟩
              · by_cases hfar : tooFar visit.s.pl x y ∧ access = false
                · exact ⟨visit.s, by simp [hkind, haccess, hfar]⟩
                · exact ⟨t, by simp [hkind, haccess, hfar, ht]⟩

end VendingWords

section SuckerWords

variable {size : Size} {a : List String} {i : Nat} {x y : Int}

theorem suckerWords_eq_none_iff (env : Env) {w b : Nat} {x y : Int} {words : List String}
    {s : Session} {block : WorldBlock} (hblock : s.block? w b = some block) :
    suckerWords env w b x y words s = none ↔ suckerLooks words = true := by
  induction words generalizing s block with
  | nil => simp [suckerWords, suckerLooks]
  | cons word rest ih =>
      unfold suckerWords suckerLooks suckerWord
      rw [hblock]
      dsimp only
      simp only [List.contains_cons, List.contains_nil, Bool.or_false]
      by_cases hshow : word = "retrieveitem" ∨ word = "additem"
      · rw [if_pos hshow]
        rcases hshow with h | h <;> simp [h]
      · rw [if_neg hshow]
        by_cases hstocks : word = "addstocks5000"
        · simp [hstocks]
        · rw [if_neg hstocks]
          by_cases hclear : word = "clearitem"
          · simp [hclear]
          · rw [if_neg hclear]
            obtain ⟨hretrieve, hadd⟩ := not_or.mp hshow
            have hname : (word == "retrieveitem" || (word == "additem" ||
                (word == "addstocks5000" || word == "clearitem"))) = false := by
              simp [hretrieve, hadd, hstocks, hclear]
            rw [hname]
            by_cases hbox : Vending.checkBox word = some "enablesucking"
            · rw [if_pos hbox]
              cases rest with
              | nil => simp [hbox]
              | cons next rest =>
                  have hrest := ih (Session.block?_mapBlock hblock fun block =>
                    { block with enabled := next == "1" && !block.enabled })
                  simpa [hbox] using hrest
            · rw [if_neg hbox]
              simpa [hbox] using ih hblock

theorem suckerCount_inside_iff (env : Env) (w b : Nat) (block : WorldBlock) (s : Session) :
    (∃ t, suckerCount env a i w b x y block s = some t) ↔ i + 8 < a.length := by
  unfold suckerCount
  cases hcount : a[i + 8]? with
  | none =>
      have hmissing := List.getElem?_eq_none_iff.mp hcount
      exact iff_of_false (by simp) (by omega)
  | some count =>
      refine iff_of_true ?_ (List.getElem?_eq_some_iff.mp hcount).1
      simp only [Option.bind_eq_bind, Option.bind_some]
      generalize (if block.fg ≠ 0 then block.fg else block.bg) = t
      split_ifs
      · exact ⟨_, rfl⟩
      · exact ⟨_, rfl⟩
      · split <;> exact ⟨_, rfl⟩
      · split <;> exact ⟨_, rfl⟩

/-- The branch behind the position. -/
theorem suckerPlace_inside_iff (size : Size) (a : List String) (i : Nat) (x y : Int) :
    (∀ visit : Visit size, ∃ t, suckerPlace visit.env a i x y visit.s = some t) ↔
      OnTile size x y (i + 8 < a.length) := by
  unfold suckerPlace OnTile
  constructor
  · intro h hy hx
    have hwithin : ¬ (size.height ≤ y ∨ size.width ≤ x) := by omega
    obtain ⟨t, ht⟩ := h (Visit.stage size .sucker {} rfl)
    rw [Visit.visited_eq, if_neg hwithin, Visit.stage_getElem?] at ht
    by_cases hb : (x + y * 100).toNat < size.count
    · refine ⟨hb, ?_⟩
      have haccess : Sucker.magplantAccess (Visit.stage size .sucker {} rfl).s.pl
          (Visit.stage size .sucker {} rfl).world {} = true := rfl
      rw [if_pos hb] at ht
      have hkind : ((Visit.stage size .sucker {} rfl).env.items.item 0).blockType =
          .sucker := rfl
      have hcount : suckerCount (Visit.stage size .sucker {} rfl).env a i
          (Visit.stage size .sucker {} rfl).w (x + y * 100).toNat x y {}
          (Visit.stage size .sucker {} rfl).s = some t := by
        simpa [haccess, hkind] using ht
      exact (suckerCount_inside_iff _ _ _ _ _).mp ⟨t, hcount⟩
    · rw [if_neg hb] at ht
      simp at ht
  · intro h visit
    rw [Visit.visited_eq]
    by_cases hout : size.height ≤ y ∨ size.width ≤ x
    · exact ⟨visit.s, by simp [hout]⟩
    · obtain ⟨hb, hlast⟩ := h (by omega) (by omega)
      obtain ⟨block, hblock, hmem⟩ := visit.block_there hb
      have horigin : ¬ (block.locked = true ∧ (block.lockOrigin < 0 ∨
          (visit.world.blocks.length : Int) ≤ block.lockOrigin)) := by
        rintro ⟨hlocked, hout⟩
        have hinside := visit.origins block hmem hlocked
        omega
      obtain ⟨t, ht⟩ := (suckerCount_inside_iff (x := x) (y := y) visit.env visit.w
        (x + y * 100).toNat block visit.s).mpr hlast
      rw [if_neg hout, hblock]
      by_cases hrefused : (visit.env.items.item block.fg.toNat).blockType ≠ .sucker ∨
          Sucker.magplantAccess visit.s.pl visit.world block = false
      · exact ⟨visit.s, by simp [horigin, hrefused]⟩
      · exact ⟨t, by simp [horigin, hrefused, ht]⟩

theorem suckerChange_inside_iff (env : Env) {w b : Nat} {block : WorldBlock} {s : Session}
    (hlength : a.length ∈ [13, 16, 14]) (hblock : s.block? w b = some block) :
    (∃ t, suckerChange env a i w b x y block s = some t) ↔ SuckerCovered a i := by
  have hwords : (∃ t, (suckerWords env w b x y a s).bind
      (fun s => some (Sucker.listMachine w b x y s)) = some t) ↔ suckerLooks a = false := by
    rw [← Bool.not_eq_true, ← suckerWords_eq_none_iff env (x := x) (y := y) hblock]
    cases suckerWords env w b x y a s <;> simp
  unfold suckerChange SuckerCovered
  by_cases hfourteen : a.length = 14
  · simp [hfourteen]
  · have heleven : 11 < a.length := by
      simp only [List.mem_cons, List.not_mem_nil, or_false] at hlength
      omega
    cases hdevice : a[11]? with
    | none => exact absurd (List.getElem?_eq_none_iff.mp hdevice) (by omega)
    | some device =>
        simp only [Option.mem_some, forall_eq']
        by_cases hplant : device = "getplantationdevice"
        · refine iff_of_true ⟨plantationDevice env x y block s, ?_⟩ fun _ h =>
            absurd hplant h
          simp [hfourteen, hplant]
        · rw [forall_prop_of_true hfourteen, forall_prop_of_true hplant]
          by_cases hthirteen : a.length = 13
          · simp only [if_pos hthirteen]
            cases hselect : a[i + 7]? with
            | none =>
                have hmissing := List.getElem?_eq_none_iff.mp hselect
                refine iff_of_false ?_ fun h => absurd h.1 (by omega)
                simp [hthirteen, hplant]
            | some select =>
                obtain ⟨hseven, -⟩ := List.getElem?_eq_some_iff.mp hselect
                rw [and_iff_right hseven]
                simp only [Option.mem_some, forall_eq']
                by_cases hname : select = "selectitem"
                · rw [if_pos hname]
                  cases hput : a[i + 8]? with
                  | none =>
                      have hmissing := List.getElem?_eq_none_iff.mp hput
                      refine iff_of_false ?_ (by omega)
                      simp [hthirteen, hplant, hname]
                  | some put =>
                      refine iff_of_true ?_ (List.getElem?_eq_some_iff.mp hput).1
                      by_cases hdigit : isDigit (firstChar put) = false
                      · exact ⟨s, by simp [hthirteen, hplant, hname, hdigit]⟩
                      · cases hselected : selectItem env w b (atoi put) block s with
                        | none =>
                            exact ⟨s, by simp [hthirteen, hplant, hname, hdigit, hselected]⟩
                        | some t =>
                            exact ⟨Sucker.listMachine w b x y t, by
                              simp [hthirteen, hplant, hname, hdigit, hselected]⟩
                · rw [if_neg hname, ← hwords]
                  simp [hthirteen, hplant, hname]
          · rw [if_neg hthirteen, ← hwords]
            simp [hfourteen, hthirteen, hplant]

/-- The tile of `itemsucker_block` is compared with the number of blocks. -/
theorem suckerTile_eq (visit : Visit size) :
    suckerTile x y visit.s =
      if size.height ≤ y ∨ size.width ≤ x ∨ x + y * size.width < 0 then none
      else (visit.world.blocks[(x + y * size.width).toNat]?).map fun block =>
        (visit.w, visit.world, (x + y * size.width).toNat, block) := by
  unfold suckerTile
  simp only [visit.found, visit.loaded, visit.height, visit.width, Option.bind_eq_bind,
    Option.bind_some]
  split
  · rfl
  · cases visit.world.blocks[(x + y * size.width).toNat]? with
    | none => rfl
    | some block => rfl

/-- The branch behind the position. -/
theorem suckerBlockPlace_inside_iff (size : Size) (hlength : a.length ∈ [13, 16, 14])
    (hleft : 0 ≤ x) (htop : 0 ≤ y) :
    (∀ visit : Visit size, ∃ t,
        suckerBlockPlace visit.env visit.guilds a i x y visit.s = some t) ↔
      (y < size.height → x < size.width →
        (x + y * size.width).toNat < size.count → SuckerCovered a i) := by
  unfold suckerBlockPlace
  constructor
  · intro h hy hx hb
    have hidx : 0 ≤ x + y * size.width :=
      Int.add_nonneg hleft (Int.mul_nonneg htop (by omega))
    have hwithin : ¬ (size.height ≤ y ∨ size.width ≤ x ∨ x + y * size.width < 0) := by omega
    obtain ⟨t, ht⟩ := h (Visit.stage size .sucker {} rfl)
    rw [suckerTile_eq, if_neg hwithin, Visit.stage_getElem?, if_pos hb] at ht
    have haccess := @Visit.stage_access size .sucker {} rfl {}
    have hkind : (Displays.tileItem (Visit.stage size .sucker {} rfl).env {}).blockType =
        .sucker := rfl
    have hblock := @Visit.stage_block? size .sucker {} rfl _ hb
    simp only [Option.map_some, haccess, hkind] at ht
    exact (suckerChange_inside_iff _ hlength hblock).mp ⟨t, ht⟩
  · intro h visit
    rw [suckerTile_eq]
    by_cases hout : size.height ≤ y ∨ size.width ≤ x ∨ x + y * size.width < 0
    · exact ⟨visit.s, by simp [hout]⟩
    · rw [if_neg hout]
      cases hblock : visit.world.blocks[(x + y * size.width).toNat]? with
      | none => exact ⟨visit.s, rfl⟩
      | some block =>
          obtain ⟨hb, hget⟩ := List.getElem?_eq_some_iff.mp hblock
          rw [visit.count] at hb
          have hmem : block ∈ visit.world.blocks := hget ▸ List.getElem_mem _
          obtain ⟨access, haccess⟩ := visit.onlyAccess_some visit.env visit.guilds {} hmem
          obtain ⟨t, ht⟩ := (suckerChange_inside_iff (x := x) (y := y) visit.env hlength
            ((visit.block?_eq _).trans hblock)).mpr (h (by omega) (by omega) hb)
          by_cases hrefused : access = false
          · exact ⟨visit.s, by simp [haccess, hrefused]⟩
          · by_cases hkind : (Displays.tileItem visit.env block).blockType ≠ .sucker
            · exact ⟨visit.s, by simp [haccess, hrefused, hkind]⟩
            · exact ⟨t, by simpa [haccess, hrefused, hkind] using ht⟩

end SuckerWords

section AllDialogs

/-- The branches read inside exactly for covered messages: from a player in any world of
a size, whose locked blocks know blocks of the world as their locks. -/
theorem callDialog_inside_iff (size : Size) (cch : String) (i : Nat) (dialog : Dialog) :
    (∀ visit : Visit size, ∃ t,
        callDialog visit.env visit.guilds cch i visit.s dialog = some t) ↔
      Covered size cch i dialog := by
  cases dialog with
  | dispshelf =>
      unfold callDialog Covered
      dsimp only
      by_cases hlength : (dialogWords cch).length = 13 ∨ (dialogWords cch).length = 14
      · rw [forall_prop_of_true hlength]
        exact dispshelf_inside_iff size (dialogWords cch) i hlength
      · refine iff_of_true (fun visit => ⟨visit.s, ?_⟩) fun h => absurd h hlength
        have hother : (dialogWords cch).length ≠ 13 ∧ (dialogWords cch).length ≠ 14 :=
          not_or.mp hlength
        simp [Displays.dispshelf, Displays.shelfTile, hother]
  | mannequinEdit =>
      unfold callDialog Covered
      dsimp only
      by_cases hlength : (dialogWords cch).length = 14
      · rw [if_pos hlength]
        exact mannequinPut_inside_iff size (dialogWords cch) i hlength
      · rw [if_neg hlength]
        exact mannequinEdit_inside_iff size (dialogWords cch) i hlength
  | vending =>
      unfold callDialog Covered vending
      dsimp only
      by_cases hlength : (dialogWords cch).length ∈ [14, 13, 20, 17, 19, 23]
      · simp only [if_neg (not_not.mpr hlength), forall_prop_of_true hlength]
        exact inside_iff_placed (fun _ => rfl) fun x y _ _ =>
          vendPlace_inside_iff size cch (dialogWords cch) i x y
      · exact iff_of_true (fun visit => ⟨visit.s, if_pos hlength⟩) fun h => absurd h hlength
  | suckerItem =>
      unfold callDialog Covered suckerItem
      dsimp only
      by_cases hlength : (dialogWords cch).length = 13
      · simp only [if_neg (not_not.mpr hlength), forall_prop_of_true hlength]
        exact inside_iff_placed (fun _ => rfl) fun x y _ _ =>
          suckerPlace_inside_iff size (dialogWords cch) i x y
      · exact iff_of_true (fun visit => ⟨visit.s, if_pos hlength⟩) fun h => absurd h hlength
  | suckerBlock =>
      unfold callDialog Covered suckerBlock
      dsimp only
      by_cases hlength : (dialogWords cch).length ∈ [13, 16, 14]
      · simp only [if_neg (not_not.mpr hlength), forall_prop_of_true hlength]
        exact inside_iff_placed (fun _ => rfl) fun x y hleft htop =>
          suckerBlockPlace_inside_iff size hlength hleft htop
      · exact iff_of_true (fun visit => ⟨visit.s, if_pos hlength⟩) fun h => absurd h hlength

/-- A message whose last word asks for another one. -/
def shelfMessage : String :=
  "action|dialog_return\ndialog_name|dispshelf\ntilex|1|\ntiley|0|\nx|x\nreplace1"

/-- It is read behind its end in a world of one row of shelves. -/
theorem last_word_asks_for_another :
    ¬ ∀ (size : Size) (cch : String) (i : Nat) (dialog : Dialog),
      size.width = 100 → 0 ≤ size.height → (size.count : Int) = 100 * size.height →
        (dialogWords cch).getD i "" ∈ names dialog →
          ∀ visit : Visit size, ∃ t,
            callDialog visit.env visit.guilds cch i visit.s dialog = some t := by
  intro hclaim
  obtain ⟨t, ht⟩ := hclaim ⟨100, 1, 100⟩ shelfMessage 3 .dispshelf rfl (by decide) rfl
    (by decide) (Visit.stage ⟨100, 1, 100⟩ .displayShelf {} rfl)
  have hnone : callDialog (Visit.stage ⟨100, 1, 100⟩ .displayShelf {} rfl).env []
      shelfMessage 3 (Visit.stage ⟨100, 1, 100⟩ .displayShelf {} rfl).s .dispshelf = none := by
    decide
  cases hnone.symm.trans ht

end AllDialogs

end DialogReads

end NopyServer
