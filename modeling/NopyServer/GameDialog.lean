/-
The dialog of a game generator.  `processInput` reads the settings line by line
from its text; a number is converted to the type of its setting before it is
clamped, so that it may wrap round instead of stopping at the nearest bound.
-/
import NopyServer.Text
import NopyServer.WorldGame

namespace NopyServer

namespace GameDialog

/-- The types that a setting is stored in. -/
inductive IntType where
  | uint8
  | int8
  | uint32
  | int32
deriving DecidableEq

namespace IntType

def low : IntType → Int
  | .uint8 => 0
  | .int8 => -128
  | .uint32 => 0
  | .int32 => -(2 ^ 31)

def high : IntType → Int
  | .uint8 => 255
  | .int8 => 127
  | .uint32 => 2 ^ 32 - 1
  | .int32 => 2 ^ 31 - 1

/-- The conversion of an `int`. -/
def convert : IntType → Int → Int
  | .uint8, v => v % 256
  | .int8, v => Int.bmod v 256
  | .uint32, v => v % 2 ^ 32
  | .int32, v => NopyServer.int32 v

theorem convert_of_range {type : IntType} {v : Int} (hlow : type.low ≤ v)
    (hhigh : v ≤ type.high) : type.convert v = v := by
  cases type with
  | uint8 =>
      simp only [low, high, convert] at *
      omega
  | int8 =>
      simp only [low, high, convert] at *
      rw [Int.bmod_def]
      split_ifs <;> omega
  | uint32 =>
      simp only [low, high, convert] at *
      omega
  | int32 =>
      simp only [low, high, convert] at *
      exact int32_of_range hlow (by omega)

end IntType

/-- The numeric settings. -/
inductive NumericSetting where
  | teamSize
  | lives
  | time
  | goals
  | minTeamSize
  | maxTeamSize
  | pvKill
  | pvLastStanding
  | pvGoal
  | pvFlag
  | pvSmash
  | pvDie
  | playerHits
  | blockHits
deriving DecidableEq

namespace NumericSetting

def all : List NumericSetting :=
  [.teamSize, .lives, .time, .goals, .minTeamSize, .maxTeamSize, .pvKill, .pvLastStanding,
    .pvGoal, .pvFlag, .pvSmash, .pvDie, .playerHits, .blockHits]

/-- The name of a setting in the dialog. -/
def key : NumericSetting → String
  | .teamSize => "teamSize"
  | .lives => "lives"
  | .time => "time"
  | .goals => "goals"
  | .minTeamSize => "min_team_size"
  | .maxTeamSize => "max_team_size"
  | .pvKill => "pv_kill"
  | .pvLastStanding => "pv_last_standing"
  | .pvGoal => "pv_goal"
  | .pvFlag => "pv_flag"
  | .pvSmash => "pv_smash"
  | .pvDie => "pv_die"
  | .playerHits => "player_hits"
  | .blockHits => "block_hits"

/-- What `std::clamp` is called with: the type and the two bounds. -/
def type : NumericSetting → IntType
  | .teamSize | .lives | .minTeamSize | .maxTeamSize | .playerHits | .blockHits => .uint8
  | .time => .uint32
  | .goals => .int32
  | _ => .int8

def lo : NumericSetting → Int
  | .pvKill | .pvLastStanding | .pvGoal | .pvFlag | .pvSmash | .pvDie => -100
  | _ => 0

def hi : NumericSetting → Int
  | .teamSize => 4
  | .lives => 100
  | .time => 3600
  | .goals => 1000000
  | .minTeamSize | .maxTeamSize => 64
  | .playerHits => 20
  | _ => 100

/-- The value of a new game. -/
def initial : NumericSetting → Int
  | .teamSize => 4
  | .lives => 3
  | .time => 60
  | .goals => 5
  | .minTeamSize | .maxTeamSize => 0
  | .pvKill => 1
  | .pvDie => -1
  | .playerHits | .blockHits => 3
  | _ => 0

end NumericSetting

/-- The check boxes, by their names, with their `GameOptions`. -/
def options : List (String × Nat) :=
  [("respawn_on_score", 1), ("reset_on_score", 2), ("owner_plays", 4), ("late_joins", 8),
    ("smash_enemy_blocks", 16), ("smash_own_blocks", 32), ("disable_game_music", 64),
    ("dont_use_chat_log", 128), ("restart_automatically", 256)]

/-- The settings of a `WorldGame`. -/
structure Settings where
  name : String := "Classic Deathmatch"
  number : NumericSetting → Int := NumericSetting.initial
  flags : Nat := 0

/-- `std::clamp`. -/
def clamp (v lo hi : Int) : Int := if v < lo then lo else if hi < v then hi else v

/-- `std::clamp` on the number that `std::stoi` has read. -/
def NumericSetting.store (n : NumericSetting) (v : Int) : Int :=
  clamp (n.type.convert v) n.lo n.hi

/-- `editOption`. -/
def editOption (flags option : Nat) (enabled : Bool) : Nat :=
  if enabled then flags ||| option else flags &&& (2 ^ 32 - 1 - option)

/-- The chain of comparisons with the names; what `std::stoi` throws is caught. -/
def Settings.assign (s : Settings) (key value : String) : Settings :=
  if key = "name" then { s with name := value }
  else
    match NumericSetting.all.find? (·.key == key) with
    | some n =>
        match stoi value with
        | some v => { s with number := Function.update s.number n (n.store v) }
        | none => s
    | none =>
        match options.lookup key, stoi value with
        | some option, some v => { s with flags := editOption s.flags option (v ≠ 0) }
        | _, _ => s

/-- The lines of `std::getline`, each at its bars. -/
def lines (cch : String) : List (List String) :=
  let parts := cch.toList.splitOn '\n'
  let lines := if parts.getLast? = some [] then parts.dropLast else parts
  lines.map fun line => (line.splitOn '|').map String.ofList

/-- A line of the dialog. -/
def Settings.readLine (s : Settings) (infoDat : List String) : Settings :=
  match infoDat with
  | [key, value] => if key = "buttonClicked" then s else s.assign key value
  | _ => s

/-- The button of a line. -/
def button (infoDat : List String) : Option String :=
  if infoDat.head? = some "buttonClicked" then some (infoDat.getD 1 "") else none

/-- The settings that the game looks at. -/
def Settings.toGameSettings (s : Settings) : GameSettings where
  teamSize := (s.number .teamSize).toNat
  lives := (s.number .lives).toNat
  goals := s.number .goals
  minTeamSize := (s.number .minTeamSize).toNat
  maxTeamSize := (s.number .maxTeamSize).toNat
  flags := s.flags

/-- A game with all its settings, those that it looks at among them. -/
structure GeneratorGame where
  settings : Settings := {}
  game : WorldGame := { toGameSettings := settings.toGameSettings }
  agree : game.toGameSettings = settings.toGameSettings := by rfl

/-- The settings after the lines of a dialog; those of a game that runs stay. -/
def Settings.read (s : Settings) (started : Bool) (cch : String) : Settings :=
  if started then s else (lines cch).foldl Settings.readLine s

/-- What the buttons of a dialog do once its lines are read. -/
def pressButtons (started : Bool) (peers : List GamePeer) (peer : GamePeer) (cch : String)
    (game : WorldGame) : WorldGame :=
  let pressed := (lines cch).filterMap button
  if "start" ∈ pressed ∧ started = false then game.start peers peer
  else if "cancel" ∈ pressed ∧ started = true then game.finish
  else game

section Games

variable {peers : List GamePeer} {peer : GamePeer} {cch : String}

theorem toGameSettings_joinAll (g : WorldGame) (joins : List (Nat × Nat)) :
    (g.joinAll joins).toGameSettings = g.toGameSettings := by
  unfold WorldGame.joinAll
  induction joins generalizing g with
  | nil => rfl
  | cons call joins ih =>
      rw [List.foldl_cons, ih]
      unfold WorldGame.join
      split_ifs <;> rfl

theorem toGameSettings_start (g : WorldGame) :
    (g.start peers peer).toGameSettings = g.toGameSettings := by
  unfold WorldGame.start
  dsimp only
  generalize (if g.minTeamSize = 0 then 1 else g.minTeamSize) = minTeam
  split_ifs
  · rfl
  · rw [toGameSettings_joinAll]

/-- No button changes a setting. -/
theorem toGameSettings_pressButtons (started : Bool) (g : WorldGame) :
    (pressButtons started peers peer cch g).toGameSettings = g.toGameSettings := by
  unfold pressButtons
  dsimp only
  split_ifs
  · exact toGameSettings_start g
  · rfl
  · rfl

theorem toGameSettings_read (g : GeneratorGame) (managersInput : List String) :
    (g.game.processInput (g.settings.read g.game.started cch).toGameSettings
        managersInput).toGameSettings =
      (g.settings.read g.game.started cch).toGameSettings := by
  unfold WorldGame.processInput Settings.read
  dsimp only
  split_ifs
  · exact g.agree
  · rfl

end Games

/-- `processInput`, called by a peer. -/
def processInput (g : GeneratorGame) (peers : List GamePeer) (peer : GamePeer) (cch : String)
    (managersInput : List String) : GeneratorGame where
  settings := g.settings.read g.game.started cch
  game := pressButtons g.game.started peers peer cch
    (g.game.processInput (g.settings.read g.game.started cch).toGameSettings managersInput)
  agree := (toGameSettings_pressButtons _ _).trans (toGameSettings_read g managersInput)

/-- The number that a line has for a setting. -/
def valueIn (n : NumericSetting) (infoDat : List String) : Option Int :=
  match infoDat with
  | [key, value] => if key = n.key then stoi value else none
  | _ => none

/-- The number that the last line with one has for a setting. -/
def lastValue (n : NumericSetting) (cch : String) : Option Int :=
  ((lines cch).filterMap (valueIn n)).getLast?

/-- A number that the conversion leaves alone, or moves to the side where the
same bound is. -/
def NumericSetting.Kept (n : NumericSetting) (v : Int) : Prop :=
  (n.type.low ≤ v ∧ v ≤ n.type.high) ∨
    (v < n.type.low ∧ n.type.convert v ≤ n.lo) ∨
      (n.type.high < v ∧ n.hi ≤ n.type.convert v)

/-- What the dialog is to do to the numbers of a game. -/
structure Clamped (g : GeneratorGame) (cch : String) (after : GeneratorGame) : Prop where
  idle : g.game.started = false → ∀ n, after.settings.number n =
    match lastValue n cch with
    | some v => clamp v n.lo n.hi
    | none => g.settings.number n
  running : g.game.started = true → ∀ n, after.settings.number n = g.settings.number n

section Reading

variable {n : NumericSetting}

theorem bounds_of_type (n : NumericSetting) :
    n.type.low ≤ n.lo ∧ n.lo < n.hi ∧ n.hi ≤ n.type.high := by
  cases n <;> decide

/-- Clamping after the conversion gives the same exactly for these numbers. -/
theorem store_eq_clamp_iff (v : Int) : n.store v = clamp v n.lo n.hi ↔ n.Kept v := by
  obtain ⟨hlow, hbounds, hhigh⟩ := bounds_of_type n
  have hrange : n.type.low ≤ v → v ≤ n.type.high → n.type.convert v = v :=
    IntType.convert_of_range
  unfold NumericSetting.store NumericSetting.Kept clamp
  generalize n.type.convert v = converted at *
  by_cases hbelow : v < n.type.low
  · split_ifs <;> omega
  · by_cases habove : n.type.high < v
    · split_ifs <;> omega
    · have hsame := hrange (by omega) (by omega)
      rw [hsame]
      constructor
      · intro _
        exact Or.inl ⟨by omega, by omega⟩
      · intro _
        rfl

theorem find?_key (n : NumericSetting) :
    NumericSetting.all.find? (·.key == n.key) = some n := by
  cases n <;> decide

theorem key_ne (n : NumericSetting) : n.key ≠ "name" ∧ n.key ≠ "buttonClicked" := by
  cases n <;> decide

/-- What a comparison chain does to a number. -/
theorem number_assign (s : Settings) (key value : String) :
    (s.assign key value).number n =
      if key = n.key then ((stoi value).map n.store).getD (s.number n) else s.number n := by
  unfold Settings.assign
  by_cases hsame : key = n.key
  · subst hsame
    rw [if_neg (key_ne n).1, find?_key, if_pos rfl]
    cases stoi value <;> simp
  · rw [if_neg hsame]
    split_ifs
    · rfl
    · cases hfound : NumericSetting.all.find? (·.key == key) with
      | some m =>
          have hkey : m.key = key := by simpa using List.find?_some hfound
          have hne : n ≠ m := by
            rintro rfl
            exact hsame hkey.symm
          dsimp only
          cases stoi value with
          | none => rfl
          | some v => exact Function.update_of_ne hne _ _
      | none =>
          dsimp only
          split <;> rfl

theorem number_readLine (s : Settings) (infoDat : List String) :
    (s.readLine infoDat).number n =
      ((valueIn n infoDat).map n.store).getD (s.number n) := by
  unfold Settings.readLine valueIn
  split
  next key value =>
    by_cases hbutton : key = "buttonClicked"
    · have hne : key ≠ n.key := by
        rw [hbutton]
        exact (key_ne n).2.symm
      rw [if_pos hbutton, if_neg hne]
      rfl
    · rw [if_neg hbutton, number_assign]
      split_ifs <;> rfl
  next => rfl

/-- The last number of the lines is the one that stays. -/
theorem number_foldl_readLine (texts : List (List String)) (s : Settings) :
    (texts.foldl Settings.readLine s).number n =
      (((texts.filterMap (valueIn n)).getLast?).map n.store).getD (s.number n) := by
  induction texts generalizing s with
  | nil => rfl
  | cons infoDat texts ih =>
      rw [List.foldl_cons, ih, number_readLine]
      cases hvalue : valueIn n infoDat with
      | none => rw [List.filterMap_cons_none hvalue]; rfl
      | some v =>
          rw [List.filterMap_cons_some hvalue, List.getLast?_cons]
          cases (texts.filterMap (valueIn n)).getLast? <;> rfl

/-- The numbers are clamped exactly when no conversion moves the last one of a
setting to another place. -/
theorem processInput_clamped_iff (g : GeneratorGame) (peers : List GamePeer) (peer : GamePeer)
    (cch : String) (managersInput : List String) :
    Clamped g cch (processInput g peers peer cch managersInput) ↔
      (g.game.started = false → ∀ n v, lastValue n cch = some v → n.Kept v) := by
  have hnumbers : ∀ n, (processInput g peers peer cch managersInput).settings.number n =
      if g.game.started then g.settings.number n
      else ((lastValue n cch).map n.store).getD (g.settings.number n) := by
    intro n
    unfold processInput Settings.read lastValue
    dsimp only
    split_ifs
    · rfl
    · exact number_foldl_readLine _ _
  constructor
  · intro hclamped hidle n v hlast
    have hnumber := hclamped.idle hidle n
    rw [hnumbers, hidle, hlast] at hnumber
    exact (store_eq_clamp_iff v).mp hnumber
  · intro hkept
    constructor
    · intro hidle n
      rw [hnumbers, hidle]
      cases hlast : lastValue n cch with
      | none => rfl
      | some v => exact (store_eq_clamp_iff v).mpr (hkept hidle n v hlast)
    · intro hrunning n
      rw [hnumbers, hrunning]
      rfl

/-- A team size of 256 becomes 0 instead of 4. -/
theorem teamSize_wraps :
    ¬ ∀ (g : GeneratorGame) (peers : List GamePeer) (peer : GamePeer) (cch : String)
      (managersInput : List String),
      Clamped g cch (processInput g peers peer cch managersInput) := by
  intro h
  have hnumber := (h {} [] ⟨true, "", "", 0⟩ "teamSize|256\n" []).idle rfl .teamSize
  exact absurd hnumber (by decide)

end Reading

end GameDialog

end NopyServer
