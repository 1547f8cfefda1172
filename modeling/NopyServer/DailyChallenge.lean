/-
The rewards of the Daily Challenge.  A claim is paid by the position of the
player in `top_dailyc`, and the entry is erased: everybody ranked below moves
up by one place.  What a player gets is what `Modify` takes in.
-/
import NopyServer.InventoryRuns
import NopyServer.Server

namespace NopyServer

namespace DailyChallenge

open Inventory

/-- The server and `top_dailyc`: points and name, best first. -/
structure Challenge where
  server : Server := {}
  topDailyc : List (Int × String) := []

/-- What `claim_dailyc_rewards` hands out for a place, in its order. -/
def claimPrize (place : Nat) : List (Int × Int) :=
  let bigPrize : Int :=
    if place = 1 then 3138 else if place = 2 then 6284
    else if place = 3 then 1738 else 0
  let giveDl : Int :=
    if place = 1 then 5 else if place = 2 then 4 else if place = 3 then 3
    else if place = 4 then 2 else if place = 5 then 1 else 0
  let giveWl : Int :=
    if place = 1 ∨ place = 2 ∨ place = 3 ∨ place = 4 ∨ place = 5 then 50 else 0
  (if giveDl ≠ 0 then [(1796, giveDl)] else []) ++
    (if giveWl ≠ 0 then [(242, giveWl)] else []) ++
    (if bigPrize ≠ 0 then [(bigPrize, 1)] else [])

/-- One `Modify` after the other, and the items that were taken in. -/
def hand (env : Env) : List (Int × Int) → Session → List (Int × Int) × Session
  | [], s => ([], s)
  | prize :: rest, s =>
      let added := modify env s prize.1 prize.2 false
      let later := hand env rest added.session
      (if added.ret = 0 then prize :: later.1 else later.1, later.2)

/-- How many players stand before a name. -/
def ahead (name : String) (ranking : List (Int × String)) : Nat :=
  ranking.findIdx fun element => element.2 == name

/-- `claim_dailyc_rewards`, with what the player gets. -/
def claimDailycRewards (env : Env) (now : Int) (pl : Player) (peer : Nat)
    (ch : Challenge) : List (Int × Int) × Challenge :=
  if pl.tankIDName ∈ ch.topDailyc.map Prod.snd then
    let place := ahead pl.tankIDName ch.topDailyc + 1
    let given := hand env (claimPrize place) (ch.server.session pl now)
    (given.1,
      { server :=
          ⟨ch.server.players.set peer given.2.pl, given.2.worlds, given.2.rands⟩
        topDailyc := ch.topDailyc.eraseP fun element =>
          element.2 == pl.tankIDName })
  else ([], ch)

/-- A message of a connected player: who claimed and what was given. -/
def serveClaim (env : Env) (peer : Nat) (now : Int) (ch : Challenge) :
    List (String × List (Int × Int)) × Challenge :=
  match ch.server.players[peer]? with
  | none => ([], ch)
  | some pl =>
      let claimed := claimDailycRewards env now pl peer ch
      ([(pl.tankIDName, claimed.1)], claimed.2)

/-- A run of claims: peers, each with the time of the message. -/
def run (env : Env) : List (Nat × Int) → Challenge →
    List (String × List (Int × Int)) × Challenge
  | [], ch => ([], ch)
  | claim :: rest, ch =>
      let first := serveClaim env claim.1 claim.2 ch
      let later := run env rest first.2
      (first.1 ++ later.1, later.2)

/-- All a player was given in a run. -/
def received (name : String) (log : List (String × List (Int × Int))) :
    List (Int × Int) :=
  (log.filter fun entry => entry.1 == name).flatMap Prod.snd

/-- Every prize finds room when its turn comes. -/
def Fits (env : Env) : List (Int × Int) → Session → Prop
  | [], _ => True
  | prize :: rest, s =>
      Room s.pl.inv prize.1 prize.2 ∧
        Fits env rest (modify env s prize.1 prize.2 false).session

/-- A claim that is paid by the final ranking: nobody ranked above has claimed
before, or the place is beyond the fifth all the same, and there is room for
the prize. -/
def Fair (env : Env) (final : List (Int × String)) (now : Int) (pl : Player)
    (ch : Challenge) : Prop :=
  (ahead pl.tankIDName ch.topDailyc = ahead pl.tankIDName final ∨
      5 ≤ ahead pl.tankIDName ch.topDailyc ∧ 5 ≤ ahead pl.tankIDName final) ∧
    Fits env (claimPrize (ahead pl.tankIDName final + 1))
      (ch.server.session pl now)

/-- A run in which every claim of a ranked player is fair. -/
def FairRun (env : Env) (final : List (Int × String)) :
    List (Nat × Int) → Challenge → Prop
  | [], _ => True
  | claim :: rest, ch =>
      (∀ pl ∈ ch.server.players[claim.1]?,
        pl.tankIDName ∈ ch.topDailyc.map Prod.snd →
          Fair env final claim.2 pl ch) ∧
        FairRun env final rest (serveClaim env claim.1 claim.2 ch).2

instance (env : Env) : (prizes : List (Int × Int)) → (s : Session) →
    Decidable (Fits env prizes s)
  | [], _ => instDecidableTrue
  | prize :: rest, s =>
      have := instDecidableFits env rest
        (modify env s prize.1 prize.2 false).session
      inferInstanceAs (Decidable (_ ∧ _))

instance (env : Env) (final : List (Int × String)) (now : Int) (pl : Player)
    (ch : Challenge) : Decidable (Fair env final now pl ch) :=
  inferInstanceAs (Decidable (_ ∧ _))

instance (env : Env) (final : List (Int × String)) :
    (claims : List (Nat × Int)) → (ch : Challenge) →
      Decidable (FairRun env final claims ch)
  | [], _ => instDecidableTrue
  | claim :: rest, ch =>
      have := instDecidableFairRun env final rest
        (serveClaim env claim.1 claim.2 ch).2
      inferInstanceAs (Decidable (_ ∧ _))

section Claims

variable {env : Env} {final : List (Int × String)} {ch : Challenge}

/-- There are five prizes. -/
theorem claimPrize_of_five_lt {place : Nat} (hplace : 5 < place) :
    claimPrize place = [] := by
  have h₁ : place ≠ 1 := by omega
  have h₂ : place ≠ 2 := by omega
  have h₃ : place ≠ 3 := by omega
  have h₄ : place ≠ 4 := by omega
  have h₅ : place ≠ 5 := by omega
  simp [claimPrize, h₁, h₂, h₃, h₄, h₅]

/-- The prizes are single stacks of items of the table. -/
theorem claimPrize_stacks (place : Nat) :
    ∀ prize ∈ claimPrize place, prize.1 ∈ [(1796 : Int), 242, 3138, 6284, 1738] ∧
      0 < prize.2 ∧ prize.2 ≤ 200 := by
  by_cases hplace : 5 < place
  · rw [claimPrize_of_five_lt hplace]
    exact fun _ hmem => absurd hmem List.not_mem_nil
  · have hsmall : place = 0 ∨ place = 1 ∨ place = 2 ∨ place = 3 ∨ place = 4 ∨
        place = 5 := by omega
    rcases hsmall with rfl | rfl | rfl | rfl | rfl | rfl <;> decide

/-- Prizes that fit are all taken in. -/
theorem hand_of_fits {prizes : List (Int × Int)} {s : Session}
    (hstacks : ∀ prize ∈ prizes, Accepts env prize.1 ∧ 0 < prize.2 ∧
      prize.2 ≤ 200)
    (hfits : Fits env prizes s) : (hand env prizes s).1 = prizes := by
  induction prizes generalizing s with
  | nil => rfl
  | cons prize rest ih =>
      obtain ⟨haccepts, hpos, hlimit⟩ := hstacks prize List.mem_cons_self
      have hret := modify_ret_of_room haccepts hpos hlimit hfits.1 false
      have hrest := ih (fun other hmem =>
        hstacks other (List.mem_cons_of_mem prize hmem)) hfits.2
      simp only [hand, hret, ↓reduceIte, hrest]

theorem names_eraseP (name : String) (ranking : List (Int × String)) :
    (ranking.eraseP fun element => element.2 == name).map Prod.snd =
      (ranking.map Prod.snd).erase name := by
  induction ranking with
  | nil => rfl
  | cons element rest ih =>
      by_cases hname : element.2 = name
      · simp [hname]
      · simp [hname, ih]

/-- A fair claim gives the prize of the final place. -/
theorem claim_fair (hitems : 6284 ≤ env.items.size) {now : Int} {pl : Player}
    (peer : Nat) (hranked : pl.tankIDName ∈ ch.topDailyc.map Prod.snd)
    (hfair : Fair env final now pl ch) :
    (claimDailycRewards env now pl peer ch).1 =
      claimPrize (ahead pl.tankIDName final + 1) := by
  obtain ⟨hplace, hfits⟩ := hfair
  have hprize : claimPrize (ahead pl.tankIDName ch.topDailyc + 1) =
      claimPrize (ahead pl.tankIDName final + 1) := by
    rcases hplace with hsame | ⟨hnow, hthen⟩
    · rw [hsame]
    · rw [claimPrize_of_five_lt (by omega), claimPrize_of_five_lt (by omega)]
  unfold claimDailycRewards
  rw [if_pos hranked]
  dsimp only
  rw [hprize]
  refine hand_of_fits (fun prize hmem => ?_) hfits
  obtain ⟨hid, hpos, hlimit⟩ := claimPrize_stacks _ prize hmem
  refine ⟨?_, hpos, hlimit⟩
  simp only [List.mem_cons, List.not_mem_nil, or_false] at hid
  unfold Accepts
  omega

/-- A claim takes the player out of the ranking. -/
theorem names_claim (now : Int) {pl : Player} (peer : Nat)
    (hranked : pl.tankIDName ∈ ch.topDailyc.map Prod.snd) :
    (claimDailycRewards env now pl peer ch).2.topDailyc.map Prod.snd =
      (ch.topDailyc.map Prod.snd).erase pl.tankIDName := by
  rw [claimDailycRewards, if_pos hranked]
  exact names_eraseP pl.tankIDName ch.topDailyc

theorem claim_unranked (now : Int) {pl : Player} (peer : Nat)
    (hranked : pl.tankIDName ∉ ch.topDailyc.map Prod.snd) :
    claimDailycRewards env now pl peer ch = ([], ch) := by
  rw [claimDailycRewards, if_neg hranked]

theorem received_cons_self (name : String) (given : List (Int × Int))
    (log : List (String × List (Int × Int))) :
    received name ((name, given) :: log) = given ++ received name log := by
  simp [received]

theorem received_cons_of_ne {name other : String} (hne : name ≠ other)
    (given : List (Int × Int)) (log : List (String × List (Int × Int))) :
    received name ((other, given) :: log) = received name log := by
  simp [received, Ne.symm hne]

theorem mem_claimants_of_ne {name other : String} (hne : name ≠ other)
    (given : List (Int × Int)) (log : List (String × List (Int × Int))) :
    name ∈ ((other, given) :: log).map Prod.fst ↔ name ∈ log.map Prod.fst := by
  rw [List.map_cons, List.mem_cons]
  exact or_iff_right hne

/-- What every player gets in a fair run that starts with some of the final
ranking still unclaimed. -/
theorem received_fair (hitems : 6284 ≤ env.items.size)
    {claims : List (Nat × Int)} (hnames : (ch.topDailyc.map Prod.snd).Nodup)
    (hfair : FairRun env final claims ch) (name : String) :
    received name (run env claims ch).1 =
      if name ∈ ch.topDailyc.map Prod.snd ∧
          name ∈ (run env claims ch).1.map Prod.fst then
        claimPrize (ahead name final + 1)
      else [] := by
  induction claims generalizing ch with
  | nil => simp [run, received]
  | cons claim rest ih =>
      obtain ⟨hfirst, hrest⟩ := hfair
      cases hpeer : ch.server.players[claim.1]? with
      | none =>
          have hserve : serveClaim env claim.1 claim.2 ch = ([], ch) := by
            rw [serveClaim, hpeer]
          rw [hserve] at hrest
          simpa only [run, hserve, List.nil_append] using ih hnames hrest
      | some pl =>
          have hserve : serveClaim env claim.1 claim.2 ch =
              ([(pl.tankIDName, (claimDailycRewards env claim.2 pl claim.1 ch).1)],
                (claimDailycRewards env claim.2 pl claim.1 ch).2) := by
            rw [serveClaim, hpeer]
          rw [hserve] at hrest
          simp only [run, hserve, List.cons_append, List.nil_append]
          by_cases hranked : pl.tankIDName ∈ ch.topDailyc.map Prod.snd
          · have hgiven := claim_fair hitems claim.1 hranked
              (hfirst pl hpeer hranked)
            have hleft := @names_claim env _ claim.2 _ claim.1 hranked
            have hlater := ih (hleft ▸ hnames.erase _) hrest
            rw [hleft] at hlater
            by_cases hself : name = pl.tankIDName
            · subst hself
              rw [received_cons_self, hgiven, hlater,
                if_neg fun h => hnames.not_mem_erase h.1,
                if_pos ⟨hranked, List.mem_cons_self⟩, List.append_nil]
            · rw [received_cons_of_ne hself, hlater]
              simp only [List.mem_erase_of_ne hself, mem_claimants_of_ne hself]
          · have hsame := @claim_unranked env _ claim.2 _ claim.1 hranked
            rw [hsame] at hrest
            have hlater := ih hnames hrest
            rw [hsame]
            by_cases hself : name = pl.tankIDName
            · subst hself
              rw [received_cons_self, List.nil_append, hlater,
                if_neg fun h => hranked h.1, if_neg fun h => hranked h.1]
            · rw [received_cons_of_ne hself, hlater]
              simp only [mem_claimants_of_ne hself]

/-- Two ranked players with free slots. -/
def twoRanked : Challenge :=
  { server := { players := [
      { tankIDName := "ann", inv := List.replicate 4 (0, 0) },
      { tankIDName := "bob", inv := List.replicate 4 (0, 0) }] }
    topDailyc := [(90, "ann"), (40, "bob")] }

/-- A table that has the prizes. -/
def prizeEnv : Env := { items := ⟨10000, fun _ => {}⟩ }

end Claims

end DailyChallenge

end NopyServer
