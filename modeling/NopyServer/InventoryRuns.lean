/-
Runs of `Inventory::Modify` with its callbacks.  A property of the session that
each elementary change keeps is kept by the loops of `AutoConvert` and
`ProcessAutoSellFishInventory`, and so by `Modify` at every depth.  The same
rule, applied to the two processing flags, shows that two levels of calls are
all there is.
-/
import Mathlib.Logic.Relation
import NopyServer.InventoryInvariant

namespace NopyServer

namespace Inventory

open BoundedLoop SlotPack

/-- A property of the session that everything the two callbacks do by
themselves keeps, and the `Modify` they call. -/
structure Preserved (modify : Session → Int → Int → Bool → Modified)
    (P : Session → Prop) : Prop where
  modify : ∀ s i c forceReturn, P s → P (modify s i c forceReturn).session
  gems : ∀ s gems, P s → P { s with pl := { s.pl with gems := gems } }
  dropped : ∀ s worlds rands, P s →
    P { s with worlds := worlds, rands := rands }

/-- The same with the drops of `VisualHandle::Drop` as the only changes of the
worlds, and gems taken only for the lock that was given for them. -/
structure Carried (modify : Session → Int → Int → Bool → Modified)
    (P : Session → Prop) : Prop where
  gems : ∀ s, P s → (modify s 1796 1 true).ret = 0 →
    let t := (modify s 1796 1 true).session
    P { t with pl := { t.pl with gems := t.pl.gems - 300000 } }
  modify : ∀ s i c forceReturn, P s → P (modify s i c forceReturn).session
  dropped : ∀ s items now name drop rands, P s →
    P { s with worlds := dropInWorld items now name drop s.worlds, rands := rands }

theorem Preserved.carried {modify : Session → Int → Int → Bool → Modified}
    {P : Session → Prop} (hP : Preserved modify P) : Carried modify P where
  modify := hP.modify
  gems s hs _ := hP.gems _ _ (hP.modify s 1796 1 true hs)
  dropped s _ _ _ _ rands hs := hP.dropped s _ rands hs

namespace Carried

variable {modify : Session → Int → Int → Bool → Modified}
  {P : Session → Prop} {s : Session}

theorem convertItemBody (hP : Carried modify P) (fromId toId : Int)
    (state : Session × Nat) (hs : P state.1) :
    P (convertItemBody modify fromId toId state).state.1 := by
  have htaken := hP.modify _ fromId (-100) true hs
  have hadded := hP.modify _ toId 1 true htaken
  have hrefund := hP.modify _ fromId 100 true hadded
  unfold Inventory.convertItemBody
  dsimp only
  split_ifs <;> assumption

theorem tryConvertItem (hP : Carried modify P) (fromId toId : Int)
    (enabled : Bool) (hs : P s) :
    P (tryConvertItem modify fromId toId enabled s).2 := by
  unfold Inventory.tryConvertItem
  split_ifs
  · exact hs
  · exact hs
  · exact run_invariant (fun state : Session × Nat => P state.1)
      (hP.convertItemBody fromId toId) _ hs

theorem convertGemsBody (hP : Carried modify P) (state : Session × Nat)
    (hs : P state.1) : P (convertGemsBody modify state).state.1 := by
  have hadded := hP.modify _ 1796 1 true hs
  unfold Inventory.convertGemsBody
  dsimp only
  split_ifs with _ hret
  · exact hadded
  · exact hP.gems _ hs (not_not.mp hret)
  · exact hs

theorem tryConvertGems (hP : Carried modify P) (hs : P s) :
    P (tryConvertGems modify s).2 := by
  unfold Inventory.tryConvertGems
  split_ifs
  · exact hs
  · exact hs
  · exact run_invariant (fun state : Session × Nat => P state.1)
      hP.convertGemsBody _ hs

theorem convertRound (hP : Carried modify P) (hs : P s) :
    P (convertRound modify s).2 :=
  hP.tryConvertItem 8470 20298 _ (hP.tryConvertItem 7188 8470 _
    (hP.tryConvertItem 1796 7188 _ (hP.tryConvertItem 242 1796 _
      (hP.tryConvertGems hs))))

theorem convertRoundsBody (hP : Carried modify P) (s : Session)
    (hs : P s) : P (convertRoundsBody modify s).state := by
  have hround := hP.convertRound hs
  unfold Inventory.convertRoundsBody
  dsimp only
  split <;> exact hround

theorem convertRounds (hP : Carried modify P) (hs : P s) :
    P (run (Inventory.convertRoundsBody modify) 512 s) :=
  run_invariant P hP.convertRoundsBody 512 hs

theorem autoConvertWith (hP : Carried modify P)
    (hset : ∀ s processing, P s → P (setConverting processing s)) (hs : P s) :
    P (autoConvertWith modify s) := by
  unfold Inventory.autoConvertWith
  split_ifs
  · exact hs
  · exact hs
  · exact hset _ _ (hP.convertRounds (hset _ _ hs))

theorem dropBeside (hP : Carried modify P) (env : Env) (id count : Int)
    (hs : P s) : P (dropBeside env id count s) :=
  hP.dropped s env.items s.now s.pl.world _ s.rand.2.rand.2.rands hs

theorem giveLockBody (hP : Carried modify P) (env : Env) (itemId : Int)
    (state : Session × Int) (hs : P state.1) :
    P (giveLockBody modify env itemId state).state.1 := by
  unfold Inventory.giveLockBody
  by_cases hpos : 0 < state.2
  · simp only [hpos, ↓reduceIte, Next.state_again]
    generalize (if 200 < state.2 then 200 else state.2) = give
    have hadded := hP.modify state.1 itemId give true hs
    split
    · exact hP.dropBeside env itemId give hadded
    · exact hadded
  · simp only [hpos, ↓reduceIte, Next.state_stop]
    exact hs

theorem giveLockOrDrop (hP : Carried modify P) (env : Env)
    (itemId amount : Int) (hs : P s) :
    P (giveLockOrDrop modify env itemId amount s) :=
  run_invariant (fun state : Session × Int => P state.1)
    (hP.giveLockBody env itemId) _ hs

theorem payForFish (hP : Carried modify P) (env : Env) (totalWl : Int)
    (hs : P s) : P (payForFish modify env totalWl s) :=
  hP.giveLockOrDrop env 242 _ (hP.giveLockOrDrop env 1796 _
    (hP.giveLockOrDrop env 7188 _ (hP.giveLockOrDrop env 8470 _ hs)))

theorem sellFishKind (hP : Carried modify P) (env : Env)
    (state : Session × Bool × Int) (price : Int × Int) (hs : P state.1) :
    P (sellFishKind modify env state price).1 := by
  have hsold := hP.modify state.1 price.1
    (-contains state.1.pl.inv price.1) true hs
  unfold Inventory.sellFishKind
  dsimp only
  split_ifs <;> assumption

theorem sellFishKinds (hP : Carried modify P) (env : Env)
    (prices : List (Int × Int)) (state : Session × Bool × Int)
    (hs : P state.1) :
    P (prices.foldl (Inventory.sellFishKind modify env) state).1 := by
  induction prices generalizing state with
  | nil => exact hs
  | cons price prices ih => exact ih _ (hP.sellFishKind env state price hs)

theorem sellFishWith (hP : Carried modify P) (env : Env)
    (hset : ∀ s processing, P s → P (setSelling processing s)) (hs : P s) :
    P (sellFishWith modify env s) := by
  have hsold := hP.sellFishKinds env env.exchangeSetPrice
    (setSelling true s, false, 0) (hset _ _ hs)
  unfold Inventory.sellFishWith
  dsimp only
  split_ifs
  · exact hs
  · exact hs
  · exact hset _ _ (hP.payForFish env _ hsold)
  · exact hset _ _ hsold

end Carried

namespace Preserved

variable {modify : Session → Int → Int → Bool → Modified}
  {P : Session → Prop} {s : Session}

theorem autoConvertWith (hP : Preserved modify P)
    (hset : ∀ s processing, P s → P (setConverting processing s)) (hs : P s) :
    P (autoConvertWith modify s) :=
  hP.carried.autoConvertWith hset hs

theorem sellFishWith (hP : Preserved modify P) (env : Env)
    (hset : ∀ s processing, P s → P (setSelling processing s)) (hs : P s) :
    P (sellFishWith modify env s) :=
  hP.carried.sellFishWith env hset hs

end Preserved

section Depth

variable {env : Env} {P : Session → Prop}

/-- A property of the session that `Modify` keeps at every depth, once both
callbacks keep it over any `Modify` that does. -/
structure Kept (env : Env) (P : Session → Prop) : Prop where
  slots : ∀ (s : Session) i c forceReturn next left, 0 < i → c ≤ 200 →
    modifySlots env.items s.pl i c forceReturn = (some next, left) → P s →
      P { s with pl := next }
  gems : ∀ s gems, P s → P { s with pl := { s.pl with gems := gems } }
  dropped : ∀ s worlds rands, P s →
    P { s with worlds := worlds, rands := rands }
  convert : ∀ modify, Preserved modify P → ∀ s, P s →
    P (autoConvertWith modify s)
  sell : ∀ modify, Preserved modify P → ∀ s, P s → P (sellFishWith modify env s)

theorem Kept.modifyWith (hP : Kept env P) {convert sell : Session → Session}
    (hconvert : ∀ s, P s → P (convert s)) (hsell : ∀ s, P s → P (sell s))
    (s : Session) (i c : Int) (forceReturn : Bool) (hs : P s) :
    P (modifyWith env convert sell s i c forceReturn).session := by
  unfold Inventory.modifyWith
  split_ifs with hguard hinfinite
  · exact hs
  · exact hs
  · split
    · exact hs
    · next next left hslots =>
        have hnext := hP.slots s i c forceReturn next left (by omega)
          (by omega) hslots hs
        dsimp only
        split
        · exact hsell _ (hconvert _ hnext)
        · exact hconvert _ hnext

theorem Kept.modifyN (hP : Kept env P) (depth : Nat) :
    Preserved (modifyN env depth) P := by
  induction depth with
  | zero =>
      exact ⟨hP.modifyWith (fun _ hs => hs) (fun _ hs => hs), hP.gems,
        hP.dropped⟩
  | succ depth ih =>
      exact ⟨hP.modifyWith (hP.convert _ ih) (hP.sell _ ih), hP.gems,
        hP.dropped⟩

end Depth

section Slots

variable {env : Env}

theorem kept_slots (env : Env) (size : Nat) :
    Kept env fun s => SlotInv s.pl.inv ∧ s.pl.inv.length = size where
  slots s i c forceReturn next left hi hc hslots hs := by
    have hspec := @modifySlots_spec env.items s.pl i c forceReturn hs.1 hi hc
    rcases hspec with ⟨next', left', heq, hchanged⟩ | ⟨left', heq, -⟩
    · rw [hslots] at heq
      cases heq
      exact ⟨hchanged.slots, hchanged.length.trans hs.2⟩
    · rw [hslots] at heq
      cases heq
  gems _ _ hs := hs
  dropped _ _ _ hs := hs
  convert _ hmodify _ hs := hmodify.autoConvertWith (fun _ _ h => h) hs
  sell _ hmodify _ hs := hmodify.sellFishWith env (fun _ _ h => h) hs

/-- One call keeps the shape and the number of slots, whatever the settings. -/
theorem modify_slots (env : Env) {s : Session} (hs : SlotInv s.pl.inv)
    (i c : Int) (forceReturn : Bool) :
    SlotInv (modify env s i c forceReturn).session.pl.inv ∧
      (modify env s i c forceReturn).session.pl.inv.length =
        s.pl.inv.length :=
  ((kept_slots env s.pl.inv.length).modifyN 2).modify s i c forceReturn
    ⟨hs, rfl⟩

/-- A step of a run of `Modify` calls: a call, or anything between two calls
that leaves the slots alone, such as switching a setting. -/
inductive ModifyStep (env : Env) : Session → Session → Prop where
  | call (s : Session) (i c : Int) (forceReturn : Bool) :
      ModifyStep env s (modify env s i c forceReturn).session
  | between (s t : Session) (hinv : t.pl.inv = s.pl.inv) : ModifyStep env s t

/-- The shape and the number of slots along a whole run. -/
theorem modify_run_slots {s t : Session}
    (hrun : Relation.ReflTransGen (ModifyStep env) s t)
    (hs : SlotInv s.pl.inv) :
    SlotInv t.pl.inv ∧ t.pl.inv.length = s.pl.inv.length := by
  induction hrun with
  | refl => exact ⟨hs, rfl⟩
  | tail _ hstep ih =>
      cases hstep with
      | call i c forceReturn =>
          obtain ⟨hslots, hlength⟩ := modify_slots env ih.1 i c forceReturn
          exact ⟨hslots, hlength.trans ih.2⟩
      | between _ hinv => exact hinv ▸ ih

/-- A call on an id that `Modify` does not accept. -/
theorem modify_not_accepted {s : Session} {i : Int} (hi : ¬ Accepts env i)
    (c : Int) (forceReturn : Bool) :
    modify env s i c forceReturn = ⟨-1, c, s⟩ := by
  have hguard : 200 < c ∨ env.items.size < i ∨ i ≤ 0 ∨ i = 112 ∨
      s.pl.inv = [] := by
    unfold Accepts at hi
    omega
  exact if_pos hguard

/-- The contract of a call with both callbacks and infinite mode off. -/
theorem modify_contract {s : Session} {i c : Int} (forceReturn : Bool)
    (hs : SlotInv s.pl.inv) (hquiet : Quiet env s.pl i c) :
    ((modify env s i c forceReturn).ret = 0 ∧
      ∀ id, contains (modify env s i c forceReturn).session.pl.inv id =
        contains s.pl.inv id + if id = i then c else 0) ∨
    ((modify env s i c forceReturn).ret = -1 ∧
      (modify env s i c forceReturn).session = s) := by
  by_cases haccepts : Accepts env i
  · rcases modify_quiet forceReturn hs haccepts hquiet with
      ⟨next, left, hmodify, hchanged⟩ | ⟨left, hmodify, -⟩
    · rw [hmodify]
      refine Or.inl ⟨rfl, fun id => ?_⟩
      rw [contains_eq_total hchanged.slots, contains_eq_total hs]
      by_cases hid : id = i
      · subst hid
        simpa using Pack.change_amount_self hchanged.view
      · simpa [hid] using Pack.change_amount_of_ne hchanged.view hid
    · rw [hmodify]
      exact Or.inr ⟨rfl, rfl⟩
  · rw [modify_not_accepted haccepts]
    exact Or.inr ⟨rfl, rfl⟩

/-- The contract along every run of calls, from any backpack of the right
shape.  The shape and the number of slots are kept whatever the settings are;
a call made with both callbacks and infinite mode off changes the count of its
item by the amount, or nothing at all. -/
theorem modify_run_contract {s t : Session}
    (hrun : Relation.ReflTransGen (ModifyStep env) s t)
    (hs : SlotInv s.pl.inv) :
    (SlotInv t.pl.inv ∧ t.pl.inv.length = s.pl.inv.length) ∧
      ∀ i c forceReturn, t.pl.autoConvert = false →
        t.pl.autosellfish = false → t.pl.infiniteMode = false →
        let call := modify env t i c forceReturn
        (call.ret = 0 ∨ call.ret = -1) ∧
        (call.ret = 0 →
          contains call.session.pl.inv i = contains t.pl.inv i + c ∧
          ∀ other, other ≠ i →
            contains call.session.pl.inv other = contains t.pl.inv other) ∧
        (call.ret = -1 → call.session.pl.inv = t.pl.inv) := by
  have hslots := modify_run_slots hrun hs
  refine ⟨hslots, fun i c forceReturn hconvert hsell hfinite => ?_⟩
  have hquiet : Quiet env t.pl i c :=
    ⟨Or.inl hconvert, Or.inr (Or.inl hsell), hfinite⟩
  rcases modify_contract forceReturn hslots.1 hquiet with
    ⟨hret, hcount⟩ | ⟨hret, hsame⟩
  · refine ⟨Or.inl hret, fun _ => ⟨?_, fun other hother => ?_⟩, fun h => ?_⟩
    · simpa using hcount i
    · simpa [hother] using hcount other
    · rw [hret] at h
      omega
  · refine ⟨Or.inr hret, fun h => ?_, fun _ => ?_⟩
    · rw [hret] at h
      omega
    · rw [hsame]

/-- Two calls on a backpack of two slots: the stack grows, then the other slot
is taken. -/
theorem modify_run_contract_two_calls :
    let env : Env := { items := ⟨10, fun _ => {}⟩ }
    let s : Session := { pl := { inv := [(2, 199), (0, 0)] } }
    let t := (modify env (modify env s 2 1 false).session 4 3 false).session
    SlotInv s.pl.inv ∧ t.pl.inv = [(2, 200), (4, 3)] ∧ SlotInv t.pl.inv :=
  have hs : SlotInv [(2, 199), (0, 0)] := by decide
  ⟨hs, by decide,
    (modify_run_contract (Relation.ReflTransGen.tail
      (Relation.ReflTransGen.single (.call _ 2 1 false)) (.call _ 4 3 false))
      hs).1.1⟩

end Slots

section Agreement

variable {modify other : Session → Int → Int → Bool → Modified}
  {Q : Session → Prop} {s : Session}

theorem convertItemBody_congr (hQ : Preserved modify Q)
    (hagree : ∀ s, Q s → other s = modify s) (fromId toId : Int)
    (state : Session × Nat) (hs : Q state.1) :
    convertItemBody modify fromId toId state =
      convertItemBody other fromId toId state := by
  have htaken := hQ.modify _ fromId (-100) true hs
  have hadded := hQ.modify _ toId 1 true htaken
  unfold convertItemBody
  rw [hagree _ hs]
  dsimp only
  rw [hagree _ htaken, hagree _ hadded]

theorem tryConvertItem_congr (hQ : Preserved modify Q)
    (hagree : ∀ s, Q s → other s = modify s) (fromId toId : Int)
    (enabled : Bool) (hs : Q s) :
    tryConvertItem modify fromId toId enabled s =
      tryConvertItem other fromId toId enabled s := by
  unfold tryConvertItem
  rw [run_congr (fun state : Session × Nat => Q state.1)
    (convertItemBody_congr hQ hagree fromId toId)
    (hQ.carried.convertItemBody fromId toId) _ hs]

theorem convertGemsBody_congr (hagree : ∀ s, Q s → other s = modify s)
    (state : Session × Nat) (hs : Q state.1) :
    convertGemsBody modify state = convertGemsBody other state := by
  unfold convertGemsBody
  rw [hagree _ hs]

theorem tryConvertGems_congr (hQ : Preserved modify Q)
    (hagree : ∀ s, Q s → other s = modify s) (hs : Q s) :
    tryConvertGems modify s = tryConvertGems other s := by
  unfold tryConvertGems
  rw [run_congr (fun state : Session × Nat => Q state.1)
    (convertGemsBody_congr hagree) hQ.carried.convertGemsBody _ hs]

theorem convertRound_congr (hQ : Preserved modify Q)
    (hagree : ∀ s, Q s → other s = modify s) (hs : Q s) :
    convertRound modify s = convertRound other s := by
  have hgems := hQ.carried.tryConvertGems hs
  unfold convertRound
  rw [← tryConvertGems_congr hQ hagree hs]
  dsimp only
  generalize tryConvertGems modify s = gems at hgems ⊢
  have hwl := hQ.carried.tryConvertItem 242 1796 gems.2.pl.autoCvModeWlToDl hgems
  rw [← tryConvertItem_congr hQ hagree 242 1796 _ hgems]
  generalize tryConvertItem modify 242 1796 gems.2.pl.autoCvModeWlToDl gems.2 =
    wl at hwl ⊢
  have hdl := hQ.carried.tryConvertItem 1796 7188 wl.2.pl.autoCvModeDlToBgl hwl
  rw [← tryConvertItem_congr hQ hagree 1796 7188 _ hwl]
  generalize tryConvertItem modify 1796 7188 wl.2.pl.autoCvModeDlToBgl wl.2 =
    dl at hdl ⊢
  have hbgl := hQ.carried.tryConvertItem 7188 8470 dl.2.pl.autoCvModeBglToGgl hdl
  rw [← tryConvertItem_congr hQ hagree 7188 8470 _ hdl,
    ← tryConvertItem_congr hQ hagree 8470 20298 _ hbgl]

theorem autoConvertWith_congr (hQ : Preserved modify Q)
    (hagree : ∀ s, Q s → other s = modify s)
    (hs : s.pl.autoConvertProcessing = false → Q (setConverting true s)) :
    autoConvertWith modify s = autoConvertWith other s := by
  unfold autoConvertWith
  by_cases hon : s.pl.autoConvert = false
  · rw [if_pos hon, if_pos hon]
  by_cases hbusy : s.pl.autoConvertProcessing = true
  · rw [if_neg hon, if_pos hbusy, if_neg hon, if_pos hbusy]
  have hround : ∀ s, Q s →
      convertRoundsBody modify s = convertRoundsBody other s := by
    intro s hs
    unfold convertRoundsBody
    rw [convertRound_congr hQ hagree hs]
  rw [run_congr Q hround hQ.carried.convertRoundsBody 512 (hs (by simpa using hbusy))]

theorem giveLockOrDrop_congr (hQ : Preserved modify Q)
    (hagree : ∀ s, Q s → other s = modify s) (env : Env)
    (itemId amount : Int) (hs : Q s) :
    giveLockOrDrop modify env itemId amount s =
      giveLockOrDrop other env itemId amount s := by
  have hbody : ∀ state : Session × Int, Q state.1 →
      giveLockBody modify env itemId state =
        giveLockBody other env itemId state := by
    intro state hstate
    unfold giveLockBody
    rw [hagree _ hstate]
  unfold giveLockOrDrop
  rw [run_congr (fun state : Session × Int => Q state.1) hbody
    (hQ.carried.giveLockBody env itemId) _ hs]

theorem payForFish_congr (hQ : Preserved modify Q)
    (hagree : ∀ s, Q s → other s = modify s) (env : Env) (totalWl : Int)
    (hs : Q s) :
    payForFish modify env totalWl s = payForFish other env totalWl s := by
  have hmgl := hQ.carried.giveLockOrDrop env 8470 (totalWl / 100 / 100 / 100 / 100) hs
  have hbgl := hQ.carried.giveLockOrDrop env 7188 (totalWl / 100 / 100 % 100) hmgl
  have hdl := hQ.carried.giveLockOrDrop env 1796 (totalWl / 100 % 100) hbgl
  unfold payForFish
  dsimp only
  rw [← giveLockOrDrop_congr hQ hagree env 8470 _ hs,
    ← giveLockOrDrop_congr hQ hagree env 7188 _ hmgl,
    ← giveLockOrDrop_congr hQ hagree env 1796 _ hbgl,
    ← giveLockOrDrop_congr hQ hagree env 242 _ hdl]

theorem sellFishKinds_congr (hQ : Preserved modify Q)
    (hagree : ∀ s, Q s → other s = modify s) (env : Env)
    (prices : List (Int × Int)) (state : Session × Bool × Int)
    (hs : Q state.1) :
    prices.foldl (sellFishKind modify env) state =
      prices.foldl (sellFishKind other env) state := by
  induction prices generalizing state with
  | nil => rfl
  | cons price prices ih =>
      have hkind : sellFishKind other env state price =
          sellFishKind modify env state price := by
        unfold sellFishKind
        rw [hagree _ hs]
      rw [List.foldl_cons, List.foldl_cons, hkind]
      exact ih _ (hQ.carried.sellFishKind env state price hs)

theorem sellFishWith_congr (hQ : Preserved modify Q)
    (hagree : ∀ s, Q s → other s = modify s) (env : Env)
    (hs : s.pl.autosellfishProcessing = false → Q (setSelling true s)) :
    sellFishWith modify env s = sellFishWith other env s := by
  unfold sellFishWith
  by_cases hon : s.pl.autosellfish = false
  · rw [if_pos hon, if_pos hon]
  by_cases hbusy : s.pl.autosellfishProcessing = true
  · rw [if_neg hon, if_pos hbusy, if_neg hon, if_pos hbusy]
  have hstart := hs (by simpa using hbusy)
  have hsold := hQ.carried.sellFishKinds env env.exchangeSetPrice
    (setSelling true s, false, 0) hstart
  rw [← sellFishKinds_congr hQ hagree env env.exchangeSetPrice
    (setSelling true s, false, 0) hstart]
  dsimp only
  rw [payForFish_congr hQ hagree env _ hsold]

end Agreement

section Recursion

variable {env : Env}

theorem modifySlots_core {items : Items} {pl next : Player} {i c left : Int}
    {forceReturn : Bool}
    (h : modifySlots items pl i c forceReturn = (some next, left)) :
    next.core = pl.core := by
  unfold modifySlots at h
  split at h
  · split_ifs at h <;> cases h
    · exact (loseItem_frame items i pl).1
    · rfl
  · split_ifs at h <;> cases h
    rfl
  · cases h

theorem kept_converting (env : Env) (processing : Bool) :
    Kept env fun s => s.pl.autoConvertProcessing = processing where
  slots s i c forceReturn next left _ _ hslots hs :=
    (Player.core_congr (modifySlots_core hslots)
      Player.autoConvertProcessing fun _ => rfl).trans hs
  gems _ _ hs := hs
  dropped _ _ _ hs := hs
  convert modify _ s hs := by
    unfold autoConvertWith
    split_ifs with hon hbusy
    · exact hs
    · exact hs
    · have hidle : s.pl.autoConvertProcessing = false := by simpa using hbusy
      exact hidle.symm.trans hs
  sell _ hmodify _ hs := hmodify.sellFishWith env (fun _ _ h => h) hs

theorem kept_selling (env : Env) (processing : Bool) :
    Kept env fun s => s.pl.autosellfishProcessing = processing where
  slots s i c forceReturn next left _ _ hslots hs :=
    (Player.core_congr (modifySlots_core hslots)
      Player.autosellfishProcessing fun _ => rfl).trans hs
  gems _ _ hs := hs
  dropped _ _ _ hs := hs
  convert _ hmodify _ hs := hmodify.autoConvertWith (fun _ _ h => h) hs
  sell modify _ s hs := by
    unfold sellFishWith
    split_ifs with hon hbusy
    · exact hs
    · exact hs
    · have hidle : s.pl.autosellfishProcessing = false := by simpa using hbusy
      exact hidle.symm.trans hs

/-- A member that neither losing an item nor gems nor the two flags touch. -/
theorem kept_member {α : Type} (env : Env) (f : Player → α) (value : α)
    (hcore : ∀ pl : Player, f pl.core = f pl)
    (hgems : ∀ (pl : Player) gems, f { pl with gems := gems } = f pl)
    (hconverting : ∀ (pl : Player) processing,
      f { pl with autoConvertProcessing := processing } = f pl)
    (hselling : ∀ (pl : Player) processing,
      f { pl with autosellfishProcessing := processing } = f pl) :
    Kept env fun s => f s.pl = value where
  slots _ _ _ _ _ _ _ _ hslots hs :=
    (Player.core_congr (modifySlots_core hslots) f hcore).trans hs
  gems _ _ hs := (hgems _ _).trans hs
  dropped _ _ _ hs := hs
  convert _ hmodify _ hs :=
    hmodify.autoConvertWith (fun _ _ h => (hconverting _ _).trans h) hs
  sell _ hmodify _ hs :=
    hmodify.sellFishWith env (fun _ _ h => (hselling _ _).trans h) hs

/-- How many levels of calls can still open. -/
def openLevels (s : Session) : Nat :=
  (!s.pl.autoConvertProcessing).toNat + (!s.pl.autosellfishProcessing).toNat

theorem openLevels_modifyN (env : Env) (depth : Nat) (s : Session)
    (i c : Int) (forceReturn : Bool) :
    openLevels (modifyN env depth s i c forceReturn).session =
      openLevels s := by
  have hconverting := ((kept_converting env
    s.pl.autoConvertProcessing).modifyN depth).modify s i c forceReturn rfl
  have hselling := ((kept_selling env
    s.pl.autosellfishProcessing).modifyN depth).modify s i c forceReturn rfl
  unfold openLevels
  rw [hconverting, hselling]

theorem openLevels_autoConvertWith (env : Env) (depth : Nat) (s : Session) :
    openLevels (autoConvertWith (modifyN env depth) s) = openLevels s := by
  have hconverting := kept_converting env s.pl.autoConvertProcessing
  have hselling := kept_selling env s.pl.autosellfishProcessing
  unfold openLevels
  rw [hconverting.convert _ (hconverting.modifyN depth) s rfl,
    hselling.convert _ (hselling.modifyN depth) s rfl]

theorem preserved_openLevels (env : Env) (depth levels : Nat) :
    Preserved (modifyN env depth) fun s => openLevels s ≤ levels where
  modify s i c forceReturn hs := by
    rw [openLevels_modifyN]
    exact hs
  gems _ _ hs := hs
  dropped _ _ _ hs := hs

theorem openLevels_setConverting {s : Session}
    (hidle : s.pl.autoConvertProcessing = false) :
    openLevels (setConverting true s) + 1 = openLevels s := by
  simp only [openLevels, setConverting, hidle, Bool.not_true, Bool.toNat_false,
    Bool.not_false, Bool.toNat_true]
  omega

theorem openLevels_setSelling {s : Session}
    (hidle : s.pl.autosellfishProcessing = false) :
    openLevels (setSelling true s) + 1 = openLevels s := by
  simp only [openLevels, setSelling, hidle, Bool.not_true, Bool.toNat_false,
    Bool.not_false, Bool.toNat_true]

/-- Two versions of `Modify` over callbacks that agree wherever the call can
reach them. -/
theorem modifyWith_congr {convert convert' sell sell' : Session → Session}
    {s : Session} {levels : Nat} (hs : openLevels s = levels)
    (hconvert : ∀ t, openLevels t = levels →
      convert t = convert' t ∧ openLevels (convert t) = levels)
    (hsell : ∀ t, openLevels t = levels →
      t.pl.autosellfishProcessing = false → sell t = sell' t) :
    modifyWith env convert sell s = modifyWith env convert' sell' s := by
  funext i c forceReturn
  unfold modifyWith
  split_ifs
  · rfl
  · rfl
  · cases hslots : modifySlots env.items s.pl i c forceReturn with
    | mk next left =>
        cases next with
        | none => rfl
        | some next =>
            have hlevels : openLevels { s with pl := next } = levels := by
              have hcore := modifySlots_core hslots
              rw [← hs]
              unfold openLevels
              rw [Player.core_congr hcore Player.autoConvertProcessing
                  fun _ => rfl,
                Player.core_congr hcore Player.autosellfishProcessing
                  fun _ => rfl]
            obtain ⟨heq, hafter⟩ := hconvert _ hlevels
            dsimp only
            rw [← heq]
            split
            · next hfish => rw [hsell _ hafter hfish.2.2.1]
            · rfl

/-- A call at a depth below which no further level can open does not depend on
the depth. -/
theorem modifyN_succ (depth : Nat) {s : Session} (hs : openLevels s ≤ depth) :
    modifyN env (depth + 1) s = modifyN env depth s := by
  induction depth generalizing s with
  | zero =>
      have hzero : openLevels s = 0 := by omega
      refine modifyWith_congr hzero (fun t ht => ?_) fun t ht hidle => ?_
      · have hbusy : t.pl.autoConvertProcessing = true := by
          by_contra hidle
          have := openLevels_setConverting (Bool.eq_false_iff.mpr hidle)
          omega
        rw [autoConvertWith_quiet (Or.inr hbusy)]
        exact ⟨rfl, ht⟩
      · have := openLevels_setSelling hidle
        omega
  | succ depth ih =>
      have hinner := preserved_openLevels env depth depth
      refine modifyWith_congr rfl (fun t ht => ⟨?_, ?_⟩) fun t ht hidle => ?_
      · refine (autoConvertWith_congr hinner (fun u hu => ih hu) ?_).symm
        intro hidle
        have := openLevels_setConverting hidle
        omega
      · rw [openLevels_autoConvertWith, ht]
      · refine (sellFishWith_congr hinner (fun u hu => ih hu) env ?_).symm
        intro _
        have := openLevels_setSelling hidle
        omega

/-- The recursive equation of the source. -/
theorem modify_eq (env : Env) (s : Session) :
    modify env s = modifyWith env (autoConvert env)
      (processAutoSellFishInventory env) s := by
  have hlevels : openLevels s ≤ 2 := by
    have h₁ := Bool.toNat_le (!s.pl.autoConvertProcessing)
    have h₂ := Bool.toNat_le (!s.pl.autosellfishProcessing)
    unfold openLevels
    omega
  exact (modifyN_succ 2 hlevels).symm

end Recursion

section Room

variable {env : Env} {s : Session} {i c : Int}

/-- The stack that was found has room, or a free slot was. -/
def Scan.Fits (c : Int) : Scan → Prop
  | .found _ n => n + c ≤ 200
  | .free _ => True
  | .none => False

instance (c : Int) : (found : Scan) → Decidable (found.Fits c)
  | .found _ n => inferInstanceAs (Decidable (n + c ≤ 200))
  | .free _ => instDecidableTrue
  | .none => instDecidableFalse

/-- There is a stack with room for the items, or a free slot. -/
def Room (inv : List (Int × Int)) (i c : Int) : Prop :=
  (scan i inv 0 none).Fits c

instance (inv : List (Int × Int)) (i c : Int) : Decidable (Room inv i c) :=
  inferInstanceAs (Decidable ((scan i inv 0 none).Fits c))

theorem modifySlots_of_room {items : Items} {pl : Player} (hc : 0 < c)
    (hroom : Room pl.inv i c) (forceReturn : Bool) :
    ∃ next left, modifySlots items pl i c forceReturn = (some next, left) := by
  unfold modifySlots
  unfold Room at hroom
  split
  · next a n hscan =>
      rw [hscan] at hroom
      have hlimit : n + c ≤ 200 := hroom
      have hneg : ¬ (c < 0 ∧ n + c < 0) := by omega
      rw [if_pos hlimit, if_neg hneg]
      split_ifs
      · exact ⟨_, _, rfl⟩
      · omega
      · exact ⟨_, _, rfl⟩
  · exact ⟨_, _, if_pos hc⟩
  · next hscan =>
      rw [hscan] at hroom
      exact hroom.elim

/-- Items that there is room for are taken in, whatever the settings. -/
theorem modify_ret_of_room (haccepts : Accepts env i) (hc : 0 < c)
    (hlimit : c ≤ 200) (hroom : Room s.pl.inv i c) (forceReturn : Bool) :
    (modify env s i c forceReturn).ret = 0 := by
  have hinv : s.pl.inv ≠ [] := by
    intro hnil
    rw [hnil] at hroom
    exact hroom
  have hguard : ¬ (200 < c ∨ env.items.size < i ∨ i ≤ 0 ∨ i = 112 ∨
      s.pl.inv = []) := by
    unfold Accepts at haccepts
    simp only [hinv, or_false]
    omega
  have hinfinite : ¬ (s.pl.infiniteMode = true ∧ c < 0) := by omega
  obtain ⟨next, left, hslots⟩ :=
    @modifySlots_of_room i c env.items s.pl hc hroom forceReturn
  rw [modify_eq]
  unfold modifyWith
  rw [if_neg hguard, if_neg hinfinite, hslots]
  dsimp only
  split <;> rfl

/-- The change is made at the slot that was found, or in the free one. -/
def Scan.Takes (c : Int) : Scan → Prop
  | .found _ n => n + c ≤ 200 ∧ (0 ≤ c ∨ 0 ≤ n + c) ∧ (c ≠ 0 ∨ n = 0)
  | .free _ => 0 < c
  | .none => False

instance (c : Int) : (found : Scan) → Decidable (found.Takes c)
  | .found _ n => inferInstanceAs
      (Decidable (n + c ≤ 200 ∧ (0 ≤ c ∨ 0 ≤ n + c) ∧ (c ≠ 0 ∨ n = 0)))
  | .free _ => inferInstanceAs (Decidable (0 < c))
  | .none => instDecidableFalse

/-- `Modify` makes the change for this player. -/
def Takes (env : Env) (pl : Player) (i c : Int) : Prop :=
  ¬ (200 < c ∨ env.items.size < i ∨ i ≤ 0 ∨ i = 112 ∨ pl.inv = []) ∧
    (pl.infiniteMode = true ∧ c < 0 ∨ (scan i pl.inv 0 none).Takes c)

instance (env : Env) (pl : Player) (i c : Int) : Decidable (Takes env pl i c) :=
  inferInstanceAs (Decidable (_ ∧ _))

theorem modifySlots_isSome_iff {items : Items} {pl : Player}
    (forceReturn : Bool) :
    (modifySlots items pl i c forceReturn).1.isSome = true ↔
      (scan i pl.inv 0 none).Takes c := by
  unfold modifySlots
  cases scan i pl.inv 0 none with
  | found a n =>
      simp only [Scan.Takes]
      split_ifs <;> simp <;> omega
  | free a =>
      simp only [Scan.Takes]
      split_ifs with hc <;> simp [hc]
  | none => simp [Scan.Takes]

/-- Whether a call succeeds is decided by the backpack before it. -/
theorem modify_ret_eq_zero_iff (forceReturn : Bool) :
    (modify env s i c forceReturn).ret = 0 ↔ Takes env s.pl i c := by
  have hslots := @modifySlots_isSome_iff i c env.items s.pl forceReturn
  rw [modify_eq]
  unfold modifyWith Takes
  split_ifs with hguard hinfinite
  · simp [hguard]
  · simp [hguard, hinfinite]
  · rw [← hslots]
    cases modifySlots env.items s.pl i c forceReturn with
    | mk next left =>
        cases next with
        | none => simp [hinfinite]
        | some next =>
            dsimp only
            split_ifs <;> simp [hguard]

/-- A call that fails changes nothing. -/
theorem modify_session_of_ret_ne_zero {forceReturn : Bool}
    (hret : (modify env s i c forceReturn).ret ≠ 0) :
    (modify env s i c forceReturn).session = s := by
  rw [modify_eq] at hret ⊢
  unfold modifyWith at hret ⊢
  split_ifs at hret ⊢ with hguard hinfinite
  · rfl
  · rfl
  · split at hret
    · rfl
    · dsimp only at hret
      split_ifs at hret <;> exact absurd rfl hret

end Room

end Inventory

end NopyServer
