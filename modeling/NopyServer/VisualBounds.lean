/-
Where `form_visual` writes.  A packet of one block has 56 bytes and those of `alloc_`
behind its header.  `need` says how far the writes of a block reach; what is not listed
there ends within the first 56 bytes, and the admins of a lock are counted by `alloc_`.
-/
import NopyServer.FormVisual

namespace NopyServer

namespace FormVisual

open CursorBuffer

section Places

variable {room place : Nat}

@[simp] theorem inside_int8 (n : Int) : (int8 place n).Inside room ↔ place + 1 ≤ room := by
  simp [int8, Poke.Inside, ← List.length_eq_zero_iff]

@[simp] theorem inside_int16 (n : Int) : (int16 place n).Inside room ↔ place + 2 ≤ room := by
  simp [int16, Poke.Inside, ← List.length_eq_zero_iff]

@[simp] theorem inside_int32 (n : Int) : (int32 place n).Inside room ↔ place + 4 ≤ room := by
  simp [int32, Poke.Inside, ← List.length_eq_zero_iff]

theorem inside_copy (text : String) (hplace : place ≤ room) :
    (copy place text).Inside room ↔ place + text.length ≤ room := by
  have hlength := length_textBytes text
  simp only [copy, Poke.Inside, ← List.length_eq_zero_iff, hlength]
  omega

/-- Everything a visual writes lies in the room. -/
def Visual.Within (room : Nat) (v : Visual) : Prop :=
  ∀ p ∈ v.pokes, p.Inside room

/-- Numbers of four bytes one behind the other. -/
theorem row_inside (numbers : List Int) (step : Nat) :
    (∀ p ∈ numbers.mapIdx fun i n => int32 (place + i * step) n, p.Inside room) ↔
      numbers = [] ∨ place + (numbers.length - 1) * step + 4 ≤ room := by
  simp only [List.mem_mapIdx]
  constructor
  · intro hall
    by_cases hempty : numbers = []
    · exact Or.inl hempty
    · have hpos := List.length_pos_iff.mpr hempty
      right
      have hlast := hall _ ⟨numbers.length - 1, by omega, rfl⟩
      rwa [inside_int32] at hlast
  · rintro (rfl | hroom) p ⟨i, hi, rfl⟩
    · cases hi
    · have hstep : i * step ≤ (numbers.length - 1) * step := Nat.mul_le_mul_right _ (by omega)
      rw [inside_int32]
      omega

end Places

section Kinds

variable (items : VisualItems) (guilds : List Guild) (players : List Player) (now : Int)
  (world : World) (block : VisualBlock)

/-- The players in a world. -/
def inWorld : Nat :=
  players.countP fun pl => pl.world == world.name

/-- How far the writes reach that go by the texts and lists of a block. -/
def needOf : BlockTypes → Nat
  | .fishMount => block.txt.length + 19
  | .oven => if block.food = [] then 0 else 8 * block.food.length + 28
  | .countryFlag => block.heartMonitor.length + 11
  | .crimeVillain => block.txt.length + 11
  | .paintingEasel => block.txt.length + 15
  | .portrait => block.txt.length + if faceless block then 11 else 33
  | .mannequin => block.txt.length + 34
  | .heartMonitor => block.heartMonitor.length + 15
  | .vipEntrance => if block.limitAdmins then 4 * inWorld players world + 18 else 0
  | .battleCage => block.battlePet.2.length + 15
  | .door | .portal => (doorText block).length + 12
  | .sign => block.txt.length + 13
  | _ => 0

/-- An item with a branch of its own in front of the switch is not asked for its type. -/
def need : Nat :=
  if items.audioRack block.fg then block.txt.length + 13
  else if items.simpleLoad block.fg ∨ block.fg = 6954 then 0
  else needOf players world block (items.blockType block.fg)

variable {room : Nat}

theorem foodPokes_inside (i : Nat) (food : FoodType) (hfood : 8 * i + 23 ≤ room) :
    ∀ p ∈ foodPokes now block i food, p.Inside room := by
  simp [foodPokes]
  omega

theorem length_vipMembers (peer : Option Player) (hlimit : block.limitAdmins = true) :
    (vipMembers players world block peer).length = inWorld players world := by
  simp [vipMembers, hlimit, inWorld, List.countP_eq_length_filter]

/-- Behind the owner or a developer stand the admins that `alloc_` counts. -/
theorem length_vipMembers_le (peer : Option Player) (hlimit : ¬ block.limitAdmins = true) :
    (vipMembers players world block peer).length ≤
      1 + if block.fg = 14594 then block.adminBfg.length else block.admins.length := by
  simp only [vipMembers, hlimit, Bool.false_eq_true, if_false, List.length_append]
  apply Nat.add_le_add
  · split
    · split <;> simp
    · simp
  · split <;> simp

theorem mascotPokes_inside (case_ : Bool) (count : Nat) (guild : Guild)
    (hcount : 39 + count * 4 ≤ room) :
    ∀ p ∈ mascotPokes case_ count guild, p.Inside room := by
  cases case_ <;> simp [mascotPokes]
  · omega
  · split <;> omega

/-- A place is left open behind the first admin, and `alloc_` has 99 bytes for all that
is not an admin. -/
theorem lock_within (case_ : Bool)
    (hadmins : 155 + 4 * (lockAdmins world block).length ≤ room) :
    (lock guilds world block case_).Within room := by
  have hlist : ∀ p ∈ (lockAdmins world block).mapIdx adminPoke, p.Inside room := by
    intro p hp
    obtain ⟨i, hi, rfl⟩ := List.mem_mapIdx.mp hp
    simp only [adminPoke, inside_int32]
    split <;> omega
  have hpokes :
      ∀ p ∈ (if block.spin then [int32 4 0x00800000] else []) ++
        [int8 8 3, int8 9 (lockSettings world block),
          int32 10 (nameToNumber (toLower
            (if smallLock block.fg then block.ownerName else world.ownerName))).toNat,
          int32 18 (-world.musicBpm)] ++
        (lockAdmins world block).mapIdx adminPoke ++
        [int32 14 ((lockAdmins world block).length + 1 : Nat)], p.Inside room := by
    simp only [List.forall_mem_append]
    refine ⟨⟨⟨?_, ?_⟩, hlist⟩, ?_⟩
    · split
      · simp
        omega
      · simp
    · simp
      omega
    · simp
      omega
  simp only [lock, Visual.Within]
  by_cases hguild : block.fg = 5814 ∧ world.guildId ≠ 0
  · rw [if_pos hguild]
    cases findGuild guilds world.guildId with
    | none => exact hpokes
    | some guild =>
        exact List.forall_mem_append.mpr ⟨hpokes, mascotPokes_inside _ _ _ (by omega)⟩
  · rw [if_neg hguild]
    exact hpokes

section Room

variable (hroom : 56 ≤ room)

include hroom

theorem weatherItem_inside (id : Int) : ∀ p ∈ weatherItem block id, p.Inside room := by
  simp [weatherItem]
  omega

theorem guildWeather_inside (case_ : Bool) (peer : Option Player) (mascot : Int)
    (members : List GuildMember) :
    ∀ newId, ∀ p ∈ guildWeather block case_ peer mascot newId members, p.Inside room := by
  induction members with
  | nil =>
      intro newId p hp
      cases hp
  | cons member members ih =>
      intro newId p hp
      rw [guildWeather, List.mem_append] at hp
      rcases hp with hp | hp
      · exact weatherItem_inside block hroom _ p hp
      · split at hp
        · cases hp
        · exact ih _ p hp

theorem weather_within (case_ : Bool) (peer : Option Player) :
    (weather guilds world block case_ peer).Within room := by
  unfold weather
  split
  · simp [Visual.Within]
    omega
  split
  · simp [Visual.Within]
    omega
  split
  · exact weatherItem_inside block hroom _
  split
  · split
    · simp [Visual.Within]
    · split
      · simp [Visual.Within]
      · exact guildWeather_inside block hroom _ _ _ _ _
  · simp [Visual.Within]
    omega

theorem oven_within :
    (oven now block).Within room ↔
      (if block.food = [] then 0 else 8 * block.food.length + 28) ≤ room := by
  unfold oven
  have hstart : (startBytes block).length = 4 := by
    unfold startBytes
    generalize (if block.c_ = 1 then block.starttime else 0) = time
    dsimp only
    split <;> rfl
  by_cases hempty : block.food = []
  · simp [Visual.Within, hempty]
    omega
  · have hpos := List.length_pos_iff.mpr hempty
    have hne : startBytes block ≠ [] := List.ne_nil_of_length_pos (by omega)
    have hrow := @row_inside room (17 + (block.food.length - 1) * 8 + 4 + 8)
      (startBytes block) 1
    simp only [mul_one, hne, false_or, hstart] at hrow
    simp only [hempty, if_false, Visual.Within, List.forall_mem_append, hrow]
    constructor
    · rintro ⟨-, hlast⟩
      omega
    · intro hall
      refine ⟨⟨?_, ?_⟩, by omega⟩
      · simp
        omega
      · intro p hp
        obtain ⟨pokes, hpokes, hp⟩ := List.mem_flatten.mp hp
        obtain ⟨i, hi, rfl⟩ := List.mem_mapIdx.mp hpokes
        exact foodPokes_inside now block i _ (by omega) p hp

theorem fishPokes_inside (place : Nat) (fish : Int × Int) (hplace : place + 5 ≤ 56) :
    ∀ p ∈ fishPokes place fish, p.Inside room := by
  simp [fishPokes]
  omega

theorem fishTank_within : (fishTank block).Within room := by
  unfold fishTank Visual.Within
  split_ifs
  · simp
    omega
  · dsimp only
    split
    · simp
    · simp only [List.forall_mem_append]
      refine ⟨⟨?_, fishPokes_inside hroom 14 _ (by omega)⟩, ?_⟩
      · simp
        omega
      · intro p hp
        obtain ⟨pokes, hpokes, hp⟩ := List.mem_flatten.mp hp
        obtain ⟨⟨fish, place⟩, hentry, rfl⟩ := List.mem_map.mp hpokes
        have hplace := (List.of_mem_zip hentry).2
        split at hp
        · cases hp
        · exact fishPokes_inside hroom place fish (by simp at hplace; omega) p hp

theorem portrait_within :
    (portrait block).Within room ↔
      block.txt.length + (if faceless block then 11 else 33) ≤ room := by
  unfold portrait Visual.Within
  have hcopy := @inside_copy room 11 block.txt (by omega)
  split_ifs
  · simp [hcopy]
    omega
  · simp [hcopy]
    omega

theorem sucker_within : (sucker block).Within room := by
  unfold sucker Visual.Within
  rw [List.forall_mem_append]
  refine ⟨?_, ?_⟩
  · simp
    omega
  · split
    · simp
      omega
    · simp
      omega

theorem vipEntrance_within (peer : Option Player) :
    (vipEntrance players world block peer).Within room ↔
      4 * (vipMembers players world block peer).length + 18 ≤ room := by
  generalize hmembers : vipMembers players world block peer = members
  have hrow := @row_inside room 18 (members.map fun n => (n.toNat : Int)) 4
  have hpokes :
      (vipEntrance players world block peer).pokes =
        [int8 8 44, int16 14 members.length] ++
          (members.map fun n => (n.toNat : Int)).mapIdx fun i n => int32 (18 + i * 4) n := by
    simp only [vipEntrance, hmembers]
    congr 1
    apply List.ext_getElem <;> simp
  rw [Visual.Within, hpokes, List.forall_mem_append, hrow]
  rcases members with _ | ⟨first, rest⟩
  · simp
    omega
  · simp
    omega

theorem givingTree_within : (givingTree now block).Within room := by
  have hzeros : (⟨8, List.replicate 7 0⟩ : Poke UInt8).Inside room := by
    right
    simp
    omega
  refine List.forall_mem_cons.mpr ⟨hzeros, ?_⟩
  simp
  omega

end Room

theorem vipEntrance_room (peer : Option Player)
    (hroom : room = 56 + alloc items world block)
    (hkind : items.blockType block.fg = .vipEntrance) :
    4 * (vipMembers players world block peer).length + 18 ≤ room ↔
      (if block.limitAdmins then 4 * inWorld players world + 18 else 0) ≤ room := by
  by_cases hlimit : block.limitAdmins = true
  · rw [length_vipMembers players world block peer hlimit, if_pos hlimit]
  · have hmembers := length_vipMembers_le players world block peer hlimit
    rw [if_neg hlimit]
    simp only [alloc, hkind] at hroom
    split at hroom <;> simp_all <;> omega

theorem typed_within (peer : Option Player) (hroom : room = 56 + alloc items world block) :
    (typed items guilds players now world block false peer).Within room ↔
      needOf players world block (items.blockType block.fg) ≤ room := by
  have hleast : 56 ≤ room := by omega
  have hmount : "`w".length = 2 := rfl
  have hdoor : "TRAVEL DOOR".length = 11 := rfl
  have hcopy := fun text => @inside_copy room 11 text (by omega)
  have hcopy' := fun text => @inside_copy room 15 text (by omega)
  unfold typed
  cases hkind : items.blockType block.fg
  case oven => exact oven_within now block hleast
  case portrait => exact portrait_within block hleast
  case weather | gameGenerator =>
    exact iff_of_true (weather_within guilds world block hleast _ _) (Nat.zero_le _)
  case fishTank => exact iff_of_true (fishTank_within block hleast) (Nat.zero_le _)
  case sucker => exact iff_of_true (sucker_within block hleast) (Nat.zero_le _)
  case givingTree => exact iff_of_true (givingTree_within now block hleast) (Nat.zero_le _)
  case vipEntrance =>
    rw [vipEntrance_within players world block hleast,
      vipEntrance_room items players world block peer hroom hkind]
    rfl
  case lock =>
    have hadmins : 155 + 4 * (lockAdmins world block).length ≤ room := by
      simp only [alloc, hkind] at hroom
      omega
    exact iff_of_true (lock_within guilds world block false hadmins) (Nat.zero_le _)
  case achievementBlock =>
    refine iff_of_true ?_ (Nat.zero_le _)
    by_cases henabled : block.enabled = true
    · simp [Visual.Within, henabled]
      omega
    · simp [Visual.Within, henabled]
      omega
  all_goals
    simp [Visual.Within, needOf, hcopy, hcopy', fishMount, autoBlock, countryFlag,
      crimeVillain, paintingEasel, mannequin, heartMonitor, displayShelf, crystal, vending,
      battleCage, door, sign, hmount, hdoor]
  all_goals omega

theorem formVisual_within (peer : Option Player)
    (hroom : room = 56 + alloc items world block) :
    (formVisual items guilds players now world block false peer).Within room ↔
      need items players world block ≤ room := by
  have hheader :
      ∀ p ∈ [int16 0 block.fg.toNat, int16 2 block.bg.toNat, int32 4 block.flags],
        p.Inside room := by
    simp
    omega
  unfold formVisual need
  simp only [Visual.Within, Bool.false_eq_true, if_false, List.forall_mem_append]
  rw [and_iff_right hheader]
  by_cases haudio : items.audioRack block.fg = true
  · have hcopy := @inside_copy room 11 block.txt (by omega)
    simp [haudio, audioRack, hcopy]
    omega
  · by_cases hload : items.simpleLoad block.fg = true
    · simp [haudio, hload]
      omega
    · by_cases hbreak : block.fg = 6954
      · rw [hbreak] at haudio hload ⊢
        simp [haudio, hload, autoBreak]
        omega
      · simp only [haudio, hload, hbreak, if_false, or_self, Bool.false_eq_true]
        exact typed_within items guilds players now world block peer hroom

/-- No byte is written outside of the packet if and only if the texts and lists of the
block end within it. -/
theorem formVisual_room_iff (peer : Option Player) :
    (∃ bytes,
      pokeAll (formVisual items guilds players now world block false peer).pokes
        (List.replicate (56 + alloc items world block) 0) = some bytes) ↔
      need items players world block ≤ 56 + alloc items world block := by
  rw [pokeAll_some_iff, List.length_replicate]
  exact formVisual_within items guilds players now world block peer rfl

theorem tileUpdate_room_iff (peer : Player) :
    (∃ bytes, tileUpdate items guilds players now world block peer = some bytes) ↔
      need items players world block ≤ 56 + alloc items world block :=
  formVisual_room_iff items guilds players now world block (some peer)

/-- The packet keeps its size from one player to the next. -/
theorem updateBlock_fold_iff (seers : List Player) :
    ∀ (buffer : List UInt8) (sent : List (List UInt8)),
      buffer.length = 56 + alloc items world block →
      ((∃ state, seers.foldlM
          (fun (state : List UInt8 × List (List UInt8)) pl =>
            (pokeAll (formVisual items guilds players now world block false (some pl)).pokes
              state.1).map fun buffer => (buffer, state.2 ++ [buffer]))
          (buffer, sent) = some state) ↔
        seers = [] ∨ need items players world block ≤ 56 + alloc items world block) := by
  induction seers with
  | nil =>
      intro buffer sent hlength
      exact iff_of_true ⟨_, rfl⟩ (Or.inl rfl)
  | cons seer seers ih =>
      intro buffer sent hlength
      have hfirst :
          (∃ stored, pokeAll
            (formVisual items guilds players now world block false (some seer)).pokes
            buffer = some stored) ↔
            need items players world block ≤ 56 + alloc items world block := by
        rw [pokeAll_some_iff, hlength]
        exact formVisual_within items guilds players now world block (some seer) rfl
      simp only [List.cons_ne_nil, false_or, List.foldlM_cons, ← hfirst]
      constructor
      · rintro ⟨state, hstate⟩
        obtain ⟨next, hnext, -⟩ := Option.bind_eq_some_iff.mp hstate
        obtain ⟨stored, hstored, -⟩ := Option.map_eq_some_iff.mp hnext
        exact ⟨stored, hstored⟩
      · rintro ⟨stored, hstored⟩
        have hkept := (pokeAll_length hstored).trans hlength
        obtain ⟨state, hstate⟩ :=
          (ih stored (sent ++ [stored]) hkept).mpr (Or.inr (hfirst.mp ⟨stored, hstored⟩))
        exact ⟨state, Option.bind_eq_some_iff.mpr
          ⟨_, Option.map_eq_some_iff.mpr ⟨stored, hstored, rfl⟩, hstate⟩⟩

theorem updateBlock_room_iff :
    (∃ packets, updateBlock items guilds players now world block = some packets) ↔
      (players.filter fun pl => pl.world == world.name) = [] ∨
        need items players world block ≤ 56 + alloc items world block := by
  rw [← updateBlock_fold_iff items guilds players now world block _
    (List.replicate (56 + alloc items world block) 0) [] (List.length_replicate ..)]
  unfold updateBlock
  constructor
  · rintro ⟨packets, hpackets⟩
    obtain ⟨state, hstate, -⟩ := Option.map_eq_some_iff.mp hpackets
    exact ⟨state, hstate⟩
  · rintro ⟨state, hstate⟩
    exact ⟨_, Option.map_eq_some_iff.mpr ⟨state, hstate, rfl⟩⟩

end Kinds

/-- An item table of mannequins. -/
def mannequins : VisualItems where
  size := 1
  item := fun _ => { blockType := .mannequin }
  audioRack := fun _ => false
  simpleLoad := fun _ => false

/-- A mannequin with the longest text that `sign_text` takes. -/
def wordyMannequin : VisualBlock :=
  { fg := 1420, txt := String.ofList (List.replicate 128 'a') }

theorem mannequin_neck (txt : String) :
    int16 (32 + txt.length) 0 ∈
      (formVisual mannequins [] [] 0 {} { fg := 1420, txt := txt } false none).pokes := by
  simp [formVisual, typed, VisualItems.blockType, mannequins, mannequin]

theorem wordyMannequin_outruns_packet :
    pokeAll (formVisual mannequins [] [] 0 {} wordyMannequin false none).pokes
      (List.replicate (56 + alloc mannequins {} wordyMannequin) 0) = none := by
  rw [Option.eq_none_iff_forall_ne_some]
  intro bytes hbytes
  have hinside := pokeAll_some_iff.mp ⟨bytes, hbytes⟩
  have hneck := hinside _ (mannequin_neck wordyMannequin.txt)
  have hlength : wordyMannequin.txt.length = 128 := by
    rw [wordyMannequin, String.length_ofList, List.length_replicate]
  have halloc : alloc mannequins {} wordyMannequin = 99 := rfl
  rw [inside_int16, List.length_replicate, hlength, halloc] at hneck
  omega

end FormVisual

end NopyServer
