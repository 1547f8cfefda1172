/-
The login attempts of an address.  They are counted in a table without times
that only a cleanup empties, two minutes or more after the last one: the count
is that of the attempts since the last cleanup, not of the last minute.
-/
import Mathlib.Data.Int.Order.Basic
import NopyServer.AntiDDoS
import NopyServer.Lib.TimeCounts

namespace NopyServer

namespace AntiDDoS

open TimeCounts

/-- The calls of a run. -/
inductive LoginStep where
  | attempt (peer : Option UInt32)
  | cleanup
deriving DecidableEq

def LoginStep.toOp : LoginStep → Op
  | .attempt peer => .checkLoginFlood peer
  | .cleanup => .cleanup

/-- The tables after some calls, each with its time. -/
def loginRun (config : AntiDDoSConfig) (start : Int) (steps : List (Int × LoginStep)) :
    AntiDDoS :=
  run config { lastCleanup := start } (steps.map fun step => (step.1, step.2.toOp))

/-- The times of the attempts of an address. -/
def attemptsOf (ip : UInt32) (steps : List (Int × LoginStep)) : List Int :=
  (steps.filter fun step => step.2 = .attempt (some ip)).map Prod.fst

/-- The time of the last cleanup, and the calls since then. -/
structure Period where
  since : Int
  steps : List (Int × LoginStep) := []

/-- A cleanup empties the tables when the interval has passed. -/
def Period.next (config : AntiDDoSConfig) (p : Period) (step : Int × LoginStep) : Period :=
  if step.2 = .cleanup then
    if step.1 - p.since < config.cleanupIntervalSeconds * 1000 then p else ⟨step.1, []⟩
  else { p with steps := p.steps ++ [step] }

def periodOf (config : AntiDDoSConfig) (start : Int) (steps : List (Int × LoginStep)) : Period :=
  steps.foldl (Period.next config) ⟨start, []⟩

/-- Every attempt that is answered with a ban is one of more than the limit
within a minute. -/
def BansDeserved (config : AntiDDoSConfig) (start : Int) (steps : List (Int × LoginStep)) :
    Prop :=
  ∀ before now ip after, steps = before ++ (now, .attempt (some ip)) :: after →
    ((loginRun config start before).checkLoginFlood config now (some ip)).1 = true →
    config.maxLoginAttemptsPerMinute <
      countIn (attemptsOf ip (before ++ [(now, .attempt (some ip))])) (now - 60000) now

/-- Every attempt that has as many before it since the last cleanup as the limit
allows comes at most a minute after the first of these. -/
def Dense (config : AntiDDoSConfig) (start : Int) (steps : List (Int × LoginStep)) : Prop :=
  ∀ before now ip after, steps = before ++ (now, .attempt (some ip)) :: after →
    config.enabled = true →
    ∀ t ∈ (attemptsOf ip (periodOf config start before).steps ++
      [now]).reverse[config.maxLoginAttemptsPerMinute.toNat]?, now - t ≤ 60000

section Attempts

variable {config : AntiDDoSConfig} {start : Int} {ip : UInt32}

theorem attemptsOf_append (first second : List (Int × LoginStep)) :
    attemptsOf ip (first ++ second) = attemptsOf ip first ++ attemptsOf ip second := by
  unfold attemptsOf
  rw [List.filter_append, List.map_append]

@[simp] theorem attemptsOf_attempt (now : Int) :
    attemptsOf ip [(now, .attempt (some ip))] = [now] := by
  simp [attemptsOf]

theorem attemptsOf_of_ne {step : Int × LoginStep} (hne : step.2 ≠ .attempt (some ip)) :
    attemptsOf ip [step] = [] := by
  simp [attemptsOf, hne]

/-- The attempts since the last cleanup are the last ones. -/
theorem attemptsOf_periodOf_suffix (steps : List (Int × LoginStep)) :
    attemptsOf ip (periodOf config start steps).steps <:+ attemptsOf ip steps := by
  induction steps using List.reverseRecOn with
  | nil => exact List.suffix_refl _
  | append_singleton steps step ih =>
      rw [periodOf, List.foldl_append, List.foldl_cons, List.foldl_nil, ← periodOf,
        attemptsOf_append]
      unfold Period.next
      split_ifs with hcleanup hearly
      · rw [attemptsOf_of_ne (by rw [hcleanup]; simp), List.append_nil]
        exact ih
      · exact List.nil_suffix
      · obtain ⟨older, holder⟩ := ih
        exact ⟨older, by rw [attemptsOf_append, ← List.append_assoc, holder]⟩

/-- The table counts the attempts since the last cleanup. -/
structure Counts (p : Period) (s : AntiDDoS) : Prop where
  since : s.lastCleanup = p.since
  attempts : ∀ ip, s.loginAttemptTable ip = (attemptsOf ip p.steps).length

theorem Counts.next (henabled : config.enabled = true) {p : Period} {s : AntiDDoS}
    (h : Counts p s) (step : Int × LoginStep) :
    Counts (p.next config step) (s.apply config step.1 step.2.toOp) := by
  obtain ⟨hsince, hattempts⟩ := h
  obtain ⟨now, call⟩ := step
  cases call with
  | cleanup =>
      simp only [Period.next, LoginStep.toOp, apply, cleanup, if_true, hsince]
      split_ifs
      · exact ⟨hsince, hattempts⟩
      · exact ⟨rfl, fun _ => rfl⟩
  | attempt peer =>
      have hnext : p.next config (now, .attempt peer) =
          { p with steps := p.steps ++ [(now, .attempt peer)] } := if_neg (by simp)
      rw [hnext]
      cases peer with
      | none =>
          refine ⟨hsince, fun ip => ?_⟩
          rw [attemptsOf_append, attemptsOf_of_ne (by simp), List.append_nil]
          exact hattempts ip
      | some changed =>
          have htables : (s.apply config now (.checkLoginFlood (some changed))).lastCleanup =
                s.lastCleanup ∧
              (s.apply config now (.checkLoginFlood (some changed))).loginAttemptTable =
                Function.update s.loginAttemptTable changed
                  (s.loginAttemptTable changed + 1) := by
            have hon : ¬ config.enabled = false := Bool.not_eq_false _ ▸ henabled
            simp only [apply, checkLoginFlood, if_neg hon]
            split_ifs <;> exact ⟨rfl, rfl⟩
          refine ⟨htables.1.trans hsince, fun ip => ?_⟩
          rw [LoginStep.toOp, htables.2, attemptsOf_append]
          by_cases hip : ip = changed
          · subst hip
            rw [Function.update_self, hattempts, attemptsOf_attempt, List.length_append]
            rfl
          · rw [Function.update_of_ne hip, attemptsOf_of_ne (by simp [Ne.symm hip]),
              List.append_nil]
            exact hattempts ip

theorem counts_loginRun (henabled : config.enabled = true) (steps : List (Int × LoginStep)) :
    Counts (periodOf config start steps) (loginRun config start steps) := by
  induction steps using List.reverseRecOn with
  | nil => exact ⟨rfl, fun _ => rfl⟩
  | append_singleton steps step ih =>
      have hrun : loginRun config start (steps ++ [step]) =
          (loginRun config start steps).apply config step.1 step.2.toOp := by
        simp [loginRun, run]
      rw [hrun, periodOf, List.foldl_append, List.foldl_cons, List.foldl_nil, ← periodOf]
      exact ih.next henabled step

/-- An attempt is answered with a ban when there are more since the last cleanup
than the limit. -/
theorem checkLoginFlood_loginRun_iff (steps : List (Int × LoginStep)) (now : Int) :
    ((loginRun config start steps).checkLoginFlood config now (some ip)).1 = true ↔
      config.enabled = true ∧ config.maxLoginAttemptsPerMinute <
        ((attemptsOf ip (periodOf config start steps).steps ++ [now]).length : Int) := by
  cases henabled : config.enabled with
  | false => simp [checkLoginFlood, henabled]
  | true =>
      have hcount := (@counts_loginRun config start henabled steps).attempts ip
      have hon : ¬ config.enabled = false := Bool.not_eq_false _ ▸ henabled
      simp only [checkLoginFlood, if_neg hon, hcount, List.length_append, List.length_singleton]
      split_ifs with hlimit
      · exact iff_of_true rfl ⟨trivial, hlimit⟩
      · exact iff_of_false not_false fun hboth => hlimit hboth.2

theorem mem_attemptsOf {steps : List (Int × LoginStep)} {t : Int}
    (ht : t ∈ attemptsOf ip steps) : ∃ step ∈ steps, step.1 = t := by
  obtain ⟨step, hstep, rfl⟩ := List.mem_map.mp ht
  exact ⟨step, List.mem_of_mem_filter hstep, rfl⟩

/-- More attempts than the limit are made within the minute exactly when the last
of them that the limit allows is. -/
theorem deserved_iff {attempts earlier : List Int} {now : Int}
    (hsuffix : earlier ++ [now] <:+ attempts) (hsorted : attempts.Pairwise (· ≤ ·))
    (hpast : ∀ t ∈ attempts, t ≤ now) (limit : Int) :
    (limit < (earlier ++ [now]).length → limit < countIn attempts (now - 60000) now) ↔
      ∀ t ∈ (earlier ++ [now]).reverse[limit.toNat]?, now - t ≤ 60000 := by
  have hcount : countIn attempts (now - 60000) now = countFrom attempts (now - 60000) := by
    apply List.countP_congr
    intro t ht
    simp [hpast t ht]
  rw [hcount]
  rcases Int.lt_or_le limit 0 with hnegative | hlimit
  · -- the first attempt is above the limit already
    apply iff_of_true
    · intro _
      omega
    · intro t ht
      have hfirst : limit.toNat = 0 := by omega
      rw [hfirst, List.reverse_append] at ht
      have hnow : now = t := by simpa using ht
      omega
  · obtain ⟨n, rfl⟩ := Int.eq_ofNat_of_zero_le hlimit
    have hsame : n < (earlier ++ [now]).length →
        attempts.reverse[n]? = (earlier ++ [now]).reverse[n]? := by
      intro hlt
      obtain ⟨older, rfl⟩ := hsuffix
      rw [List.reverse_append, List.getElem?_append_left (by simpa using hlt)]
    rw [Int.toNat_natCast, Int.ofNat_lt, Int.ofNat_lt, lt_countFrom_iff hsorted]
    constructor
    · intro hdeserved t ht
      have hlt : n < (earlier ++ [now]).length := by
        rw [← List.length_reverse]
        exact (List.getElem?_eq_some_iff.mp ht).1
      obtain ⟨t', ht', hle⟩ := hdeserved hlt
      rw [hsame hlt, ht, Option.some_inj] at ht'
      omega
    · intro hdense hlt
      have hplace : n < (earlier ++ [now]).reverse.length := by
        rw [List.length_reverse]
        exact hlt
      have ht := List.getElem?_eq_getElem hplace
      refine ⟨_, (hsame hlt).trans ht, ?_⟩
      have hle := hdense _ ht
      omega

/-- The bans of a run are deserved exactly when the attempts between two cleanups
come close enough together. -/
theorem bansDeserved_iff (config : AntiDDoSConfig) (start : Int)
    (steps : List (Int × LoginStep)) (hsorted : (steps.map Prod.fst).Pairwise (· ≤ ·)) :
    BansDeserved config start steps ↔ Dense config start steps := by
  have hattempt : ∀ before now ip after, steps = before ++ (now, .attempt (some ip)) :: after →
      ((((loginRun config start before).checkLoginFlood config now (some ip)).1 = true →
        config.maxLoginAttemptsPerMinute <
          countIn (attemptsOf ip (before ++ [(now, .attempt (some ip))])) (now - 60000) now) ↔
      (config.enabled = true →
        ∀ t ∈ (attemptsOf ip (periodOf config start before).steps ++
          [now]).reverse[config.maxLoginAttemptsPerMinute.toNat]?, now - t ≤ 60000)) := by
    intro before now ip after hsteps
    rw [checkLoginFlood_loginRun_iff, attemptsOf_append, attemptsOf_attempt, and_imp]
    apply imp_congr_right
    intro _
    have htimes : (attemptsOf ip before ++ [now]).Pairwise (· ≤ ·) := by
      have hsub : (attemptsOf ip before ++ [now]).Sublist (steps.map Prod.fst) := by
        rw [hsteps, List.map_append, List.map_cons]
        exact (List.filter_sublist.map Prod.fst).append (List.singleton_sublist.mpr (by simp))
      exact hsorted.sublist hsub
    apply deserved_iff _ htimes
    · intro t ht
      rcases List.mem_append.mp ht with hearlier | hnow
      · exact (List.pairwise_append.mp htimes).2.2 t hearlier now (List.mem_singleton.mpr rfl)
      · exact Int.le_of_eq (List.mem_singleton.mp hnow)
    · obtain ⟨older, holder⟩ := @attemptsOf_periodOf_suffix config start ip before
      exact ⟨older, by rw [← List.append_assoc, holder]⟩
  constructor
  · intro hdeserved before now ip after hsteps
    exact (hattempt before now ip after hsteps).mp (hdeserved before now ip after hsteps)
  · intro hdense before now ip after hsteps
    exact (hattempt before now ip after hsteps).mpr (hdense before now ip after hsteps)

/-- The sixth of six attempts at one time is answered with a ban. -/
theorem six_attempts_deserve_ban :
    BansDeserved {} 0 (List.replicate 6 (1000, .attempt (some 7))) := by
  apply (bansDeserved_iff {} 0 _ (by decide)).mpr
  intro before now ip after hsteps _ t ht
  have hall : ∀ step ∈ before ++ (now, LoginStep.attempt (some ip)) :: after, step.1 = 1000 := by
    intro step hstep
    rw [← hsteps] at hstep
    rw [List.eq_of_mem_replicate hstep]
  have hnow : now = 1000 := hall (now, .attempt (some ip)) (by simp)
  have htime : t = 1000 := by
    rcases List.mem_append.mp (List.mem_reverse.mp (List.mem_of_getElem? ht)) with hin | hsame
    · obtain ⟨step, hstep, rfl⟩ :=
        mem_attemptsOf ((@attemptsOf_periodOf_suffix {} 0 ip before).subset hin)
      exact hall step (List.mem_append_left _ hstep)
    · rw [List.mem_singleton.mp hsame, hnow]
  omega

/-- Six attempts in a hundred seconds without a cleanup between them are answered
with a ban. -/
theorem slow_attempts_are_banned :
    ¬ ∀ (config : AntiDDoSConfig) (start : Int) (steps : List (Int × LoginStep)),
      (steps.map Prod.fst).Pairwise (· ≤ ·) → BansDeserved config start steps := by
  intro h
  have hdeserved := h {} 0 ((List.range 6).map fun i => (20000 * i, .attempt (some 7)))
    (by decide) ((List.range 5).map fun i => (20000 * i, .attempt (some 7))) 100000 7 [] rfl
    (by decide)
  exact absurd hdeserved (by decide)

end Attempts

end AntiDDoS

end NopyServer
