/-
The clock of the Secret Bansos.  `TickOncePerSecond` builds a schedule of seven
minutes for every day, starts the preparation of the next event five minutes
before its time and delivers when the time has come.  An event is only picked
up strictly before its time, so the one at midnight never takes place.
-/
import NopyServer.DailyReward
import NopyServer.SecretBansos
import Mathlib.Data.List.Sort

namespace NopyServer

namespace SecretBansos

open DailyReward

/-- The static variables of the schedule; the giveaway is not among them. -/
structure Schedule where
  todayTimes : List Int := []
  todayYday : Int := -1
  running : Bool := false
  eventStartAt : Int := 0
  lastAnnounceSec : Int := -1
deriving DecidableEq

/-- `tm_yday` of a local day. -/
def yday (day : Int) : Int :=
  let date := Date.ofDays day
  date.julianDay - Date.julianDay ⟨date.year, 1, 1⟩

/-- The loop of `BuildTodaySchedule` over what `RandInt(0, 1439)` returns, with
`used_minutes`. -/
def drawMinutes : List Int → List Int → List Int
  | usedMinutes, [] => usedMinutes
  | usedMinutes, minuteOfDay :: draws =>
      if 7 ≤ usedMinutes.length then usedMinutes
      else if minuteOfDay ∈ usedMinutes then drawMinutes usedMinutes draws
      else drawMinutes (usedMinutes ++ [minuteOfDay]) draws

/-- Local midnight. -/
def startOfDay (offset now : Int) : Int := localDay offset now * 86400 - offset

/-- The times of a schedule. -/
def timesOf (offset now : Int) (minutes : List Int) : List Int :=
  (minutes.map fun minuteOfDay =>
    startOfDay offset now + minuteOfDay * 60).mergeSort (· ≤ ·)

/-- `BuildTodaySchedule`. -/
def buildTodaySchedule (offset : Int) (draws : List Int) (now : Int)
    (schedule : Schedule) : Schedule :=
  if schedule.todayYday = yday (localDay offset now) ∧
      schedule.todayTimes ≠ [] then schedule
  else
    { schedule with
      todayYday := yday (localDay offset now)
      todayTimes := timesOf offset now (drawMinutes [] draws) }

/-- What a tick does besides moving the schedule on. -/
inductive Effect where
  /-- The giveaway is built and announced. -/
  | coming
  | startsIn (seconds : Int)
  /-- `GiveToAllPlayers`. -/
  | delivered
deriving DecidableEq

/-- The search of `TickOncePerSecond` for the next event. -/
def prepare (now : Int) (schedule : Schedule) : Option Effect × Schedule :=
  match schedule.todayTimes.find? fun t => now < t with
  | some startAt =>
      if startAt - 300 ≤ now then
        (some .coming, { schedule with
          running := true, eventStartAt := startAt, lastAnnounceSec := -1 })
      else (none, schedule)
  | none => (none, schedule)

/-- The seconds that are announced. -/
def announces (remain : Int) : Bool :=
  remain == 240 || remain == 180 || remain == 120 || remain == 60 ||
    remain == 10 || (remain ≤ 9 && 1 ≤ remain)

/-- The countdown of `TickOncePerSecond`. -/
def countDown (now : Int) (schedule : Schedule) : Option Effect × Schedule :=
  let remain := if schedule.eventStartAt - now < 0 then 0
    else schedule.eventStartAt - now
  if remain = schedule.lastAnnounceSec then (none, schedule)
  else if remain = 0 then
    (some .delivered, { schedule with
      running := false, lastAnnounceSec := -1, eventStartAt := 0 })
  else
    (if announces remain then some (.startsIn remain) else none,
      { schedule with lastAnnounceSec := remain })

/-- `TickOncePerSecond`. -/
def tickOncePerSecond (offset : Int) (draws : List Int) (now : Int)
    (schedule : Schedule) : Option Effect × Schedule :=
  let schedule := buildTodaySchedule offset draws now schedule
  let schedule :=
    if schedule.todayYday ≠ yday (localDay offset now) then
      buildTodaySchedule offset draws now { schedule with
        running := false, lastAnnounceSec := -1, eventStartAt := 0 }
    else schedule
  if schedule.running then countDown now schedule else prepare now schedule

/-- Ticks at consecutive seconds: what they did at which second, and the
schedule after them. -/
def runTicks (offset : Int) (draws : Int → List Int) (start : Int)
    (schedule : Schedule) : Nat → List (Int × Effect) × Schedule
  | 0 => ([], schedule)
  | n + 1 =>
      let before := runTicks offset draws start schedule n
      let now := start + n
      let ticked := tickOncePerSecond offset (draws now) now before.2
      (before.1 ++ (ticked.1.map fun effect => (now, effect)).toList, ticked.2)

/-- How often the giveaway was delivered at a second. -/
def deliveries (log : List (Int × Effect)) (t : Int) : Nat :=
  log.count (t, .delivered)

section Times

variable {offset now : Int} {draws used : List Int}

theorem mem_drawMinutes {minute : Int}
    (hminute : minute ∈ drawMinutes used draws) :
    minute ∈ used ∨ minute ∈ draws := by
  induction draws generalizing used with
  | nil => exact Or.inl hminute
  | cons drawn draws ih =>
      unfold drawMinutes at hminute
      split_ifs at hminute
      · exact Or.inl hminute
      · exact (ih hminute).imp_right (List.mem_cons_of_mem drawn)
      · rcases ih hminute with hused | hdraws
        · rcases List.mem_append.mp hused with hold | hnew
          · exact Or.inl hold
          · rw [List.mem_singleton.mp hnew]
            exact Or.inr List.mem_cons_self
        · exact Or.inr (List.mem_cons_of_mem drawn hdraws)

theorem mem_timesOf {minutes : List Int} {t : Int} :
    t ∈ timesOf offset now minutes ↔
      ∃ minute ∈ minutes, startOfDay offset now + minute * 60 = t := by
  unfold timesOf
  rw [List.mem_mergeSort, List.mem_map]

/-- The times are sorted. -/
theorem timesOf_pairwise (minutes : List Int) :
    (timesOf offset now minutes).Pairwise (· ≤ ·) := by
  have hsorted := @List.pairwise_mergeSort Int (fun t later => decide (t ≤ later))
    (by intro t u v; simp; omega) (by intro t u; simp; omega)
    (minutes.map fun minuteOfDay => startOfDay offset now + minuteOfDay * 60)
  exact hsorted.imp of_decide_eq_true

/-- Two times are a minute apart. -/
theorem timesOf_apart {minutes : List Int} {t later : Int}
    (ht : t ∈ timesOf offset now minutes)
    (hlater : later ∈ timesOf offset now minutes) (hlt : t < later) :
    t + 60 ≤ later := by
  obtain ⟨minute, -, rfl⟩ := mem_timesOf.mp ht
  obtain ⟨other, -, rfl⟩ := mem_timesOf.mp hlater
  omega

/-- In a sorted list the first entry that is found is the least. -/
theorem find_least {times : List Int} {p : Int → Bool} {t : Int}
    (hsorted : times.Pairwise (· ≤ ·)) (hfound : times.find? p = some t) :
    p t = true ∧ t ∈ times ∧ ∀ later ∈ times, p later = true → t ≤ later := by
  obtain ⟨hp, pre, post, rfl, hpre⟩ := List.find?_eq_some_iff_append.mp hfound
  refine ⟨hp, by simp, ?_⟩
  intro later hlater hok
  rcases List.mem_append.mp hlater with hmem | hmem
  · have hnot := hpre later hmem
    rw [hok] at hnot
    cases hnot
  · rcases List.mem_cons.mp hmem with rfl | hpost
    · exact le_refl _
    · exact (List.pairwise_cons.mp (List.pairwise_append.mp hsorted).2.1).1 later
        hpost

end Times

section Ticks

variable {offset start now : Int} {times : List Int} {schedule : Schedule}
  {log : List (Int × Effect)}

theorem deliveries_append (log : List (Int × Effect)) (effect : Option Effect)
    (now t : Int) :
    deliveries (log ++ (effect.map fun effect => (now, effect)).toList) t =
      deliveries log t + if effect = some .delivered ∧ now = t then 1 else 0 := by
  unfold deliveries
  rw [List.count_append]
  congr 1
  cases effect with
  | none => simp
  | some effect => simp [List.count_singleton, and_comm]

/-- The times after the start that have come have been delivered. -/
def Counted (times : List Int) (start now : Int) (log : List (Int × Effect)) :
    Prop :=
  ∀ t, deliveries log t = if t ∈ times ∧ start < t ∧ t ≤ now then 1 else 0

/-- The running event is the next one, and its second has not been announced. -/
structure Awaited (times : List Int) (now : Int) (schedule : Schedule) : Prop where
  coming : now < schedule.eventStartAt
  listed : schedule.eventStartAt ∈ times
  first : ∀ t ∈ times, now < t → schedule.eventStartAt ≤ t
  announced : schedule.lastAnnounceSec = -1 ∨
    schedule.lastAnnounceSec = schedule.eventStartAt - now

/-- Between two ticks of a day: what has been delivered, and whether the next
event is prepared. -/
structure Ticking (times : List Int) (start now : Int) (log : List (Int × Effect))
    (schedule : Schedule) : Prop where
  today : schedule.todayTimes = times
  counted : Counted times start now log
  idle : schedule.running = false → ∀ t ∈ times, now < t → now + 1 < t
  busy : schedule.running = true → Awaited times now schedule

theorem Counted.nothing {effect : Option Effect}
    (hcounted : Counted times start (now - 1) log)
    (heffect : effect ≠ some .delivered)
    (hnone : ∀ t ∈ times, start < t → t ≠ now) :
    Counted times start now
      (log ++ (effect.map fun effect => (now, effect)).toList) := by
  intro t
  have hnever : ¬ (effect = some .delivered ∧ now = t) :=
    fun hboth => heffect hboth.1
  rw [deliveries_append, hcounted t, if_neg hnever]
  have hsame : (t ∈ times ∧ start < t ∧ t ≤ now - 1) ↔
      (t ∈ times ∧ start < t ∧ t ≤ now) := by
    constructor
    · rintro ⟨hmem, hafter, hle⟩
      exact ⟨hmem, hafter, by omega⟩
    · rintro ⟨hmem, hafter, hle⟩
      have hne := hnone t hmem hafter
      exact ⟨hmem, hafter, by omega⟩
  simp only [hsame, add_zero]

theorem Counted.delivered (hcounted : Counted times start (now - 1) log)
    (hdue : now ∈ times) (hafter : start < now) :
    Counted times start now (log ++ [(now, .delivered)]) := by
  intro t
  have happend := deliveries_append log (some .delivered) now t
  simp only [Option.map_some, Option.toList_some, true_and] at happend
  rw [happend, hcounted t]
  by_cases hnow : now = t
  · subst hnow
    rw [if_neg (by omega), if_pos rfl, if_pos ⟨hdue, hafter, le_refl now⟩]
  · have hsame : (t ∈ times ∧ start < t ∧ t ≤ now - 1) ↔
        (t ∈ times ∧ start < t ∧ t ≤ now) := by
      constructor
      · rintro ⟨hmem, hlater, hle⟩
        exact ⟨hmem, hlater, by omega⟩
      · rintro ⟨hmem, hlater, hle⟩
        exact ⟨hmem, hlater, by omega⟩
    rw [if_neg hnow]
    simp only [hsame, add_zero]

/-- No event is due at this second: the next one is prepared or is further
away. -/
theorem prepare_ticking (hsorted : times.Pairwise (· ≤ ·))
    (htimes : schedule.todayTimes = times) (hidle : schedule.running = false)
    (hcounted : Counted times start (now - 1) log)
    (hnone : ∀ t ∈ times, start < t → t ≠ now) :
    Ticking times start now
      (log ++ ((prepare now schedule).1.map fun effect => (now, effect)).toList)
      (prepare now schedule).2 := by
  unfold prepare
  rw [htimes]
  cases hfound : times.find? fun t => now < t with
  | none =>
      refine ⟨htimes, hcounted.nothing nofun hnone, fun _ t ht hlater => ?_,
        fun hbusy => ?_⟩
      · have hnot := List.find?_eq_none.mp hfound t ht
        exact absurd (decide_eq_true hlater) hnot
      · rw [hidle] at hbusy
        cases hbusy
  | some startAt =>
      obtain ⟨hcoming, hlisted, hfirst⟩ := find_least hsorted hfound
      have hcoming := of_decide_eq_true hcoming
      have hfirst : ∀ t ∈ times, now < t → startAt ≤ t :=
        fun t ht hlater => hfirst t ht (decide_eq_true hlater)
      dsimp only
      split_ifs with hprep
      · refine ⟨rfl, hcounted.nothing (by simp) hnone, nofun, fun _ => ?_⟩
        exact ⟨hcoming, hlisted, hfirst, Or.inl rfl⟩
      · refine ⟨htimes, hcounted.nothing nofun hnone, fun _ t ht hlater => ?_,
          fun hbusy => ?_⟩
        · have hle := hfirst t ht hlater
          omega
        · rw [hidle] at hbusy
          cases hbusy

/-- The countdown delivers when the time has come, and only then. -/
theorem countDown_ticking
    (happart : ∀ t ∈ times, ∀ later ∈ times, t < later → t + 60 ≤ later)
    (htimes : schedule.todayTimes = times) (hbusy : schedule.running = true)
    (hafter : start < now) (hcounted : Counted times start (now - 1) log)
    (hawaited : Awaited times (now - 1) schedule) :
    Ticking times start now
      (log ++ ((countDown now schedule).1.map fun effect => (now, effect)).toList)
      (countDown now schedule).2 := by
  obtain ⟨hcoming, hlisted, hfirst, hannounced⟩ := hawaited
  have hremain : ¬ schedule.eventStartAt - now < 0 := by omega
  have hfresh : schedule.eventStartAt - now ≠ schedule.lastAnnounceSec := by omega
  unfold countDown
  dsimp only
  rw [if_neg hremain, if_neg hfresh]
  by_cases hdue : schedule.eventStartAt - now = 0
  · have hnow : schedule.eventStartAt = now := by omega
    rw [hnow] at hlisted
    rw [if_pos hdue]
    refine ⟨htimes, hcounted.delivered hlisted hafter, fun _ t ht hlater => ?_, nofun⟩
    have hle := happart now hlisted t ht hlater
    omega
  · rw [if_neg hdue]
    have hnone : ∀ t ∈ times, start < t → t ≠ now := by
      intro t ht _ hnow
      have hle := hfirst t ht (by omega)
      omega
    refine ⟨htimes, hcounted.nothing ?_ hnone, ?_, fun _ => ?_⟩
    · dsimp only
      split_ifs <;> simp
    · intro hidle
      exact absurd hbusy (by simpa using hidle)
    · refine ⟨?_, hlisted, fun t ht hlater => hfirst t ht (by omega), Or.inr rfl⟩
      change now < schedule.eventStartAt
      omega

theorem prepare_yday (now : Int) (schedule : Schedule) :
    (prepare now schedule).2.todayYday = schedule.todayYday := by
  unfold prepare
  split
  · split <;> rfl
  · rfl

theorem countDown_yday (now : Int) (schedule : Schedule) :
    (countDown now schedule).2.todayYday = schedule.todayYday := by
  unfold countDown
  dsimp only
  split_ifs <;> rfl

/-- A schedule of the day is kept. -/
theorem tick_of_built {draws : List Int}
    (hyday : schedule.todayYday = yday (localDay offset now))
    (hsome : schedule.todayTimes ≠ []) :
    tickOncePerSecond offset draws now schedule =
      if schedule.running then countDown now schedule else prepare now schedule := by
  have hbuilt : buildTodaySchedule offset draws now schedule = schedule :=
    if_pos ⟨hyday, hsome⟩
  unfold tickOncePerSecond
  rw [hbuilt]
  dsimp only
  rw [if_neg (not_not_intro hyday)]

/-- The first tick of a day builds its schedule. -/
theorem tick_of_new_day {draws : List Int}
    (hyday : schedule.todayYday ≠ yday (localDay offset now))
    (hidle : schedule.running = false) :
    tickOncePerSecond offset draws now schedule =
      prepare now { schedule with
        todayYday := yday (localDay offset now)
        todayTimes := timesOf offset now (drawMinutes [] draws) } := by
  have hbuilt : buildTodaySchedule offset draws now schedule =
      { schedule with
        todayYday := yday (localDay offset now)
        todayTimes := timesOf offset now (drawMinutes [] draws) } :=
    if_neg fun hsame => hyday hsame.1
  unfold tickOncePerSecond
  rw [hbuilt]
  dsimp only
  rw [if_neg (not_not_intro rfl), hidle]
  rfl

end Ticks

section Days

variable {offset day start : Int} {draws : Int → List Int} {schedule : Schedule}

theorem localDay_of_second {n : Int} (hstart : start = day * 86400 - offset)
    (hn : 0 ≤ n ∧ n < 86400) : localDay offset (start + n) = day := by
  unfold localDay
  omega

theorem startOfDay_midnight (hstart : start = day * 86400 - offset) :
    startOfDay offset start = start := by
  have hday := localDay_of_second (n := 0) hstart ⟨le_refl 0, by decide⟩
  rw [add_zero] at hday
  unfold startOfDay
  rw [hday, hstart]

/-- The ticks of a day that begins without a running event. -/
theorem run_ticking (hstart : start = day * 86400 - offset)
    (hidle : schedule.running = false) (hyday : schedule.todayYday ≠ yday day)
    (hdraws : drawMinutes [] (draws start) ≠ []) (n : Nat) (hn : n < 86400) :
    let ran := runTicks offset draws start schedule (n + 1)
    Ticking (timesOf offset start (drawMinutes [] (draws start))) start (start + n)
      ran.1 ran.2 ∧ ran.2.todayYday = yday day := by
  have hsorted := @timesOf_pairwise offset start (drawMinutes [] (draws start))
  have happart := fun t ht later hlater => @timesOf_apart offset start
    (drawMinutes [] (draws start)) t later ht hlater
  have hsome : timesOf offset start (drawMinutes [] (draws start)) ≠ [] := by
    obtain ⟨minute, hminute⟩ := List.exists_mem_of_ne_nil _ hdraws
    exact List.ne_nil_of_mem (mem_timesOf.mpr ⟨minute, hminute, rfl⟩)
  have hfirst : localDay offset start = day := by
    have hday := localDay_of_second (n := 0) hstart ⟨le_refl 0, by decide⟩
    rwa [add_zero] at hday
  induction n with
  | zero =>
      unfold runTicks runTicks
      dsimp only
      rw [Nat.cast_zero, add_zero, tick_of_new_day (by rwa [hfirst]) hidle]
      refine ⟨prepare_ticking hsorted rfl hidle ?_ ?_, ?_⟩
      · intro t
        rw [if_neg (by omega)]
        rfl
      · intro t _ hafter
        omega
      · rw [prepare_yday, hfirst]
  | succ n ih =>
      obtain ⟨hticking, hkept⟩ := ih (by omega)
      have hnow : localDay offset (start + (n + 1 : Nat)) = day :=
        localDay_of_second hstart ⟨by omega, by omega⟩
      have hbefore : start + (n + 1 : Nat) - 1 = start + n := by
        push_cast
        omega
      unfold runTicks
      dsimp only
      generalize runTicks offset draws start schedule (n + 1) = ran at hticking hkept ⊢
      rw [tick_of_built (by rw [hnow, hkept]) (by rw [hticking.today]; exact hsome)]
      cases hrunning : ran.2.running with
      | false =>
          rw [if_neg Bool.false_ne_true, prepare_yday]
          refine ⟨prepare_ticking hsorted hticking.today hrunning ?_ ?_, hkept⟩
          · rw [hbefore]
            exact hticking.counted
          · intro t ht hafter hdue
            have hlater := hticking.idle hrunning t ht (by omega)
            omega
      | true =>
          rw [if_pos rfl, countDown_yday]
          refine ⟨countDown_ticking happart hticking.today hrunning (by omega) ?_ ?_,
            hkept⟩
          · rw [hbefore]
            exact hticking.counted
          · rw [hbefore]
            exact hticking.busy hrunning

/-- No event comes before a second, whichever of the two schedules is kept. -/
structure Quiet (midnight : Int) (schedule : Schedule) : Prop where
  times : ∀ t ∈ schedule.todayTimes, t ≤ midnight ∨ midnight + 60 ≤ t
  busy : schedule.running = true → midnight + 60 ≤ schedule.eventStartAt

theorem Quiet.build {midnight now : Int} {drawn : List Int}
    (hquiet : Quiet midnight schedule) (hmidnight : startOfDay offset now = midnight)
    (hdrawn : ∀ minute ∈ drawn, 0 ≤ minute) :
    Quiet midnight (buildTodaySchedule offset drawn now schedule) := by
  unfold buildTodaySchedule
  split_ifs
  · exact hquiet
  · refine ⟨fun t ht => ?_, hquiet.busy⟩
    obtain ⟨minute, hminute, rfl⟩ := mem_timesOf.mp ht
    have hnonneg := hdrawn minute ((mem_drawMinutes hminute).resolve_left
      List.not_mem_nil)
    rw [hmidnight]
    omega

/-- A tick of the first minute of a day delivers nothing. -/
theorem Quiet.tick {midnight now : Int} {drawn : List Int}
    (hquiet : Quiet midnight schedule) (hmidnight : startOfDay offset now = midnight)
    (hdrawn : ∀ minute ∈ drawn, 0 ≤ minute)
    (hnow : midnight ≤ now ∧ now < midnight + 60) :
    Quiet midnight (tickOncePerSecond offset drawn now schedule).2 ∧
      (tickOncePerSecond offset drawn now schedule).1 ≠ some .delivered := by
  have hbuilt := hquiet.build hmidnight hdrawn
  have hyday : (buildTodaySchedule offset drawn now schedule).todayYday =
      yday (localDay offset now) := by
    unfold buildTodaySchedule
    split_ifs with hsame
    · exact hsame.1
    · rfl
  unfold tickOncePerSecond
  generalize buildTodaySchedule offset drawn now schedule = built at hbuilt hyday ⊢
  dsimp only
  rw [if_neg (not_not_intro hyday)]
  cases hrunning : built.running with
  | false =>
      rw [if_neg Bool.false_ne_true]
      unfold prepare
      split
      next startAt hfound =>
        split_ifs
        · refine ⟨⟨hbuilt.times, fun _ => ?_⟩, by simp⟩
          have hcoming : now < startAt := by simpa using List.find?_some hfound
          have hmem := hbuilt.times startAt (List.mem_of_find?_eq_some hfound)
          dsimp only
          omega
        · exact ⟨hbuilt, nofun⟩
      next => exact ⟨hbuilt, nofun⟩
  | true =>
      have hlater := hbuilt.busy hrunning
      have hremain : ¬ built.eventStartAt - now < 0 := by omega
      have hwait : built.eventStartAt - now ≠ 0 := by omega
      rw [if_pos rfl]
      unfold countDown
      dsimp only
      rw [if_neg hremain, if_neg hwait]
      split
      · exact ⟨hbuilt, nofun⟩
      · refine ⟨⟨hbuilt.times, fun _ => hlater⟩, ?_⟩
        dsimp only
        split_ifs <;> simp

/-- What the ticks of a day and of the first seconds of the next deliver: every
time of the schedule once, at its second, but not the one at midnight. -/
theorem run_delivers (hstart : start = day * 86400 - offset)
    (hidle : schedule.running = false) (hyday : schedule.todayYday ≠ yday day)
    (hends : (drawMinutes [] (draws start)).length = 7)
    (hdraws : ∀ now, ∀ minute ∈ draws now, 0 ≤ minute ∧ minute ≤ 1439) (k : Nat)
    (hk : k ≤ 60) (t : Int) :
    deliveries (runTicks offset draws start schedule (86400 + k)).1 t =
      if t ∈ timesOf offset start (drawMinutes [] (draws start)) ∧ start < t then 1
      else 0 := by
  have hnonempty : drawMinutes [] (draws start) ≠ [] := by
    intro hnone
    rw [hnone] at hends
    cases hends
  have hrange : ∀ t ∈ timesOf offset start (drawMinutes [] (draws start)),
      t ≤ start + 86340 := by
    intro t ht
    obtain ⟨minute, hminute, rfl⟩ := mem_timesOf.mp ht
    have hle := (hdraws start minute ((mem_drawMinutes hminute).resolve_left
      List.not_mem_nil)).2
    rw [startOfDay_midnight hstart]
    omega
  have hreached : Quiet (start + 86400)
        (runTicks offset draws start schedule (86400 + k)).2 ∧
      ∀ t, deliveries (runTicks offset draws start schedule (86400 + k)).1 t =
        if t ∈ timesOf offset start (drawMinutes [] (draws start)) ∧ start < t then 1
        else 0 := by
    induction k with
    | zero =>
        obtain ⟨hticking, -⟩ := run_ticking hstart hidle hyday hnonempty 86399
          (by decide)
        rw [show 86399 + 1 = 86400 from rfl] at hticking
        refine ⟨⟨fun t ht => ?_, fun hbusy => ?_⟩, fun t => ?_⟩
        · rw [Nat.add_zero, hticking.today] at ht
          exact Or.inl (by have hle := hrange t ht; omega)
        · have hawaited := hticking.busy hbusy
          have hle := hrange _ hawaited.listed
          have hcoming := hawaited.coming
          exfalso
          push_cast at hcoming
          omega
        · rw [Nat.add_zero, hticking.counted t]
          congr 1
          apply propext
          constructor
          · rintro ⟨hmem, hafter, -⟩
            exact ⟨hmem, hafter⟩
          · rintro ⟨hmem, hafter⟩
            have hle := hrange t hmem
            exact ⟨hmem, hafter, by push_cast; omega⟩
    | succ k ih =>
        obtain ⟨hquiet, hcounted⟩ := ih (by omega)
        have hnow : start + (86400 + k : Nat) = start + 86400 + k := by
          push_cast
          omega
        have hday : localDay offset (start + 86400 + k) = day + 1 := by
          unfold localDay
          omega
        have hmidnight : startOfDay offset (start + 86400 + k) = start + 86400 := by
          unfold startOfDay
          rw [hday]
          omega
        have hticked := hquiet.tick hmidnight
          (fun minute hminute => (hdraws (start + 86400 + k) minute hminute).1)
          ⟨by omega, by omega⟩
        rw [← Nat.add_assoc]
        unfold runTicks
        dsimp only
        rw [hnow]
        refine ⟨hticked.1, fun t => ?_⟩
        rw [deliveries_append, hcounted t, Nat.add_eq_left]
        exact if_neg fun hboth => hticked.2 hboth.1
  exact hreached.2 t

/-- The ticks of the day and of the first seconds of the next deliver every time
of the schedule once, at its second, and at no other second. -/
def DeliversOnce (offset : Int) (draws : Int → List Int) (start : Int)
    (schedule : Schedule) : Prop :=
  ∀ k ≤ 60, ∀ t,
    deliveries (runTicks offset draws start schedule (86400 + k)).1 t =
      if t ∈ timesOf offset start (drawMinutes [] (draws start)) then 1 else 0

/-- Every day on which no event is due at midnight delivers each of its events
once, and no other day does. -/
theorem ticks_deliver_once_iff (hstart : start = day * 86400 - offset)
    (hidle : schedule.running = false) (hyday : schedule.todayYday ≠ yday day)
    (hends : (drawMinutes [] (draws start)).length = 7)
    (hdraws : ∀ now, ∀ minute ∈ draws now, 0 ≤ minute ∧ minute ≤ 1439) :
    DeliversOnce offset draws start schedule ↔
      0 ∉ drawMinutes [] (draws start) := by
  have hmidnight : start ∈ timesOf offset start (drawMinutes [] (draws start)) ↔
      0 ∈ drawMinutes [] (draws start) := by
    rw [mem_timesOf, startOfDay_midnight hstart]
    constructor
    · rintro ⟨minute, hminute, hsame⟩
      rwa [show minute = 0 by omega] at hminute
    · intro hzero
      exact ⟨0, hzero, by omega⟩
  constructor
  · intro honce hzero
    have hmissed := honce 0 (by decide) start
    rw [run_delivers hstart hidle hyday hends hdraws 0 (by decide),
      if_neg fun hboth => lt_irrefl start hboth.2, if_pos (hmidnight.mpr hzero)] at hmissed
    cases hmissed
  · intro hzero k hk t
    rw [run_delivers hstart hidle hyday hends hdraws k hk]
    congr 1
    apply propext
    constructor
    · intro hboth
      exact hboth.1
    · intro hmem
      refine ⟨hmem, ?_⟩
      obtain ⟨minute, hminute, hsame⟩ := mem_timesOf.mp hmem
      rw [startOfDay_midnight hstart] at hsame
      have hnonneg := (hdraws start minute ((mem_drawMinutes hminute).resolve_left
        List.not_mem_nil)).1
      have hne : minute ≠ 0 := fun heq => hzero (heq ▸ hminute)
      omega

/-- The event of midnight does not take place. -/
theorem midnight_event_missed :
    ¬ ∀ (offset day : Int) (draws : Int → List Int) (schedule : Schedule),
      schedule.running = false → schedule.todayYday ≠ yday day →
      (drawMinutes [] (draws (day * 86400 - offset))).length = 7 →
      (∀ now, ∀ minute ∈ draws now, 0 ≤ minute ∧ minute ≤ 1439) →
        DeliversOnce offset draws (day * 86400 - offset) schedule := by
  intro hall
  have honce : DeliversOnce 0 (fun _ => [0, 1, 2, 3, 4, 5, 6]) 0 {} :=
    hall 0 0 _ {} rfl (by decide) (by decide) (fun _ => by decide)
  have hmem : (0 : Int) ∈ timesOf 0 0 (drawMinutes [] [0, 1, 2, 3, 4, 5, 6]) :=
    mem_timesOf.mpr ⟨0, by decide, by decide⟩
  have hnone := @run_delivers 0 0 0 (fun _ => [0, 1, 2, 3, 4, 5, 6]) {} rfl rfl
    (by decide) (by decide) (fun _ => by decide) 0 (by decide) 0
  rw [if_neg fun hboth => lt_irrefl 0 hboth.2] at hnone
  have hdelivered := (honce 0 (by decide) 0).trans (if_pos hmem)
  exact absurd (hnone.symm.trans hdelivered) (by decide)

/-- Seven events in the first minutes of a day. -/
theorem early_events_delivered :
    DeliversOnce 0 (fun _ => [1, 2, 3, 4, 5, 6, 7]) 0 {} :=
  (@ticks_deliver_once_iff 0 0 0 (fun _ => [1, 2, 3, 4, 5, 6, 7]) {} rfl rfl
    (by decide) (by decide) (fun _ => by decide)).mpr (by decide)

end Days

end SecretBansos

end NopyServer
