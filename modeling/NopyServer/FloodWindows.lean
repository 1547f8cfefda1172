/-
The windows of `check_flood_generic`.  A window is opened by the first packet
more than a second after the start of the last one; its packets are counted in
one record together with the ban.  A ban of two seconds or more ends behind the
window in which it was imposed.
-/
import Mathlib.Data.Int.Order.Basic
import NopyServer.FloodBans
import NopyServer.Lib.TimeCounts

namespace NopyServer

open TimeCounts

/-- A call of `check_flood_generic` on the entry of an address. -/
structure FloodCall where
  now : Int
  before : FloodEntry
  verdict : Verdict FloodEntry

namespace FloodCall

/-- The packet is let through. -/
def isAccepted (c : FloodCall) : Bool := !c.verdict.answer

/-- The call sets `first_packet_time`. -/
def opens (c : FloodCall) : Bool :=
  c.verdict.entry.firstPacketTime ≠ c.before.firstPacketTime

end FloodCall

/-- The calls at some times, one after the other. -/
def FloodEntry.calls (config : AntiDDoSConfig) (maxPerSecond : Int) :
    FloodEntry → List Int → List FloodCall
  | _, [] => []
  | e, now :: times =>
      let verdict := e.checkFloodGeneric config maxPerSecond now
      ⟨now, e, verdict⟩ :: verdict.entry.calls config maxPerSecond times

/-- The times of the packets that are let through. -/
def acceptedTimes (calls : List FloodCall) : List Int :=
  (calls.filter FloodCall.isAccepted).map FloodCall.now

/-- The times that are set as starts of windows. -/
def openedTimes (calls : List FloodCall) : List Int :=
  (calls.filter FloodCall.opens).map fun c => c.verdict.entry.firstPacketTime

/-- What is let through of the packets of an address. -/
structure Limited (maxPerSecond : Int) (calls : List FloodCall) : Prop where
  window : ∀ w ∈ openedTimes calls,
    (countIn (acceptedTimes calls) w (w + 1000) : Int) ≤ maxPerSecond
  interval : ∀ a, (countIn (acceptedTimes calls) a (a + 1000) : Int) ≤ 2 * maxPerSecond
  banned : ∀ c ∈ calls, c.before.isBanned = true → c.now < c.before.banUntil →
    c.isAccepted = false

/-- The packets that were let through and the windows that were opened, against
the entry: since `start` the packets are counted, at the opening of the window
or behind a ban. -/
structure Windows (maxPerSecond : Int) (accepted opened : List Int) (e : FloodEntry)
    (start : Int) : Prop where
  counted : (countFrom accepted start : Int) ≤ e.packetCount
  limited : (countFrom accepted start : Int) ≤ maxPerSecond
  previous : (countIn accepted (start - 1000) (start - 1) : Int) ≤ maxPerSecond
  started : start ≤ e.firstPacketTime + 1000
  early : ∀ t ∈ accepted, t ≤ e.firstPacketTime + 1000
  apart : start = e.firstPacketTime ∨ ∀ t ∈ accepted, t < start → t + 1000 < start
  banned : e.isBanned = true → ∀ t ∈ accepted, t + 2000 ≤ e.banUntil
  current : opened = [] ∨ e.firstPacketTime ∈ accepted ∧ start = e.firstPacketTime ∧
    (e.isBanned = true → e.firstPacketTime + 1000 < e.banUntil) ∧
    ∀ w ∈ opened, w = e.firstPacketTime ∨ w + 1000 < e.firstPacketTime
  window : ∀ w ∈ opened, (countIn accepted w (w + 1000) : Int) ≤ maxPerSecond
  interval : ∀ a, (countIn accepted a (a + 1000) : Int) ≤ 2 * maxPerSecond

namespace Windows

variable {maxPerSecond start now : Int} {accepted opened : List Int} {e : FloodEntry}

/-- A window is opened. -/
theorem openWindow (h : Windows maxPerSecond accepted opened e start) (hmax : 1 ≤ maxPerSecond)
    (hlate : 1000 < now - e.firstPacketTime) :
    Windows maxPerSecond (accepted ++ [now]) (opened ++ [now])
      { e.released with firstPacketTime := now, packetCount := 1 } now := by
  have hbefore : ∀ t ∈ accepted, t < now := by
    intro t ht
    have hearly := h.early t ht
    omega
  have hnone : countFrom accepted now = 0 := countFrom_eq_zero hbefore
  have hfrom : countFrom (accepted ++ [now]) now ≤ 1 := by
    rw [← Nat.zero_add 1, ← hnone]
    exact countFrom_snoc_le
  -- what the last second let through was counted since `start`
  have hlast : countIn accepted (now - 1000) (now - 1) ≤ countFrom accepted start := by
    apply countIn_le_countFrom
    intro t ht hlo _
    have hstarted := h.started
    rcases h.apart with hstart | hapart
    · omega
    · by_contra hcut
      have hgap := hapart t ht (Int.not_le.mp hcut)
      omega
  have hlimited := h.limited
  constructor
  · dsimp only
    omega
  · omega
  · rw [countIn_snoc_of_out (by omega)]
    omega
  · dsimp only
    omega
  · intro t ht
    rcases List.mem_append.mp ht with hold | hnew
    · have hlt := hbefore t hold
      dsimp only
      omega
    · rw [List.mem_singleton.mp hnew]
      dsimp only
      omega
  · exact Or.inl rfl
  · intro hbanned
    rw [e.released_isBanned] at hbanned
    cases hbanned
  · refine Or.inr ⟨List.mem_append_right _ (List.mem_singleton.mpr rfl), rfl, ?_, ?_⟩
    · intro hbanned
      rw [e.released_isBanned] at hbanned
      cases hbanned
    · intro w hw
      dsimp only
      rcases List.mem_append.mp hw with hold | hnew
      · rcases h.current with hempty | ⟨-, -, -, hopened⟩
        · rw [hempty] at hold
          cases hold
        · rcases hopened w hold with hsame | hearlier <;> omega
      · exact Or.inl (List.mem_singleton.mp hnew)
  · intro w hw
    rcases List.mem_append.mp hw with hold | hnew
    · rcases h.current with hempty | ⟨-, -, -, hopened⟩
      · rw [hempty] at hold
        cases hold
      · have hwindow := h.window w hold
        rw [countIn_snoc_of_out (by rcases hopened w hold with hsame | hearlier <;> omega)]
        exact hwindow
    · rw [List.mem_singleton.mp hnew]
      have hle : countIn (accepted ++ [now]) now (now + 1000) ≤ countFrom (accepted ++ [now]) now :=
        countIn_le_countFrom fun t _ hlo _ => hlo
      omega
  · intro a
    have hinterval := h.interval a
    by_cases hin : a ≤ now ∧ now ≤ a + 1000
    · have hle : countIn accepted a (a + 1000) ≤ countIn accepted (now - 1000) (now - 1) :=
        countIn_le fun t ht hlo _ => by
          have hlt := hbefore t ht
          omega
      rw [countIn_snoc_of_in hin.1 hin.2]
      omega
    · rw [countIn_snoc_of_out hin]
      exact hinterval

/-- A packet of a window is let through. -/
theorem accept (h : Windows maxPerSecond accepted opened e start) (hstart : start ≤ now)
    (hpast : ∀ t ∈ accepted, t ≤ now) (hbanned : e.isBanned = false)
    (hwithin : now - e.firstPacketTime ≤ 1000) (hcount : e.packetCount + 1 ≤ maxPerSecond) :
    Windows maxPerSecond (accepted ++ [now]) opened
      { e with packetCount := e.packetCount + 1 } start := by
  have hcounted := h.counted
  have hfrom := @countFrom_snoc_le _ _ accepted start now
  have hnot : ¬ ({ e with packetCount := e.packetCount + 1 } : FloodEntry).isBanned = true := by
    rw [hbanned]
    exact Bool.false_ne_true
  constructor
  · dsimp only
    omega
  · omega
  · rw [countIn_snoc_of_out (by omega)]
    exact h.previous
  · exact h.started
  · intro t ht
    rcases List.mem_append.mp ht with hold | hnew
    · exact h.early t hold
    · rw [List.mem_singleton.mp hnew]
      dsimp only
      omega
  · rcases h.apart with hsame | hapart
    · exact Or.inl hsame
    · refine Or.inr fun t ht hlt => ?_
      rcases List.mem_append.mp ht with hold | hnew
      · exact hapart t hold hlt
      · rw [List.mem_singleton.mp hnew] at hlt
        omega
  · exact fun hyes => absurd hyes hnot
  · rcases h.current with hempty | ⟨hfirst, hsame, -, hopened⟩
    · exact Or.inl hempty
    · exact Or.inr ⟨List.mem_append_left _ hfirst, hsame, fun hyes => absurd hyes hnot, hopened⟩
  · intro w hw
    rcases h.current with hempty | ⟨hfirst, hsame, -, hopened⟩
    · rw [hempty] at hw
      cases hw
    · have hwindow := h.window w hw
      have hle := hpast _ hfirst
      rcases hopened w hw with rfl | hearlier
      · have hin : countIn (accepted ++ [now]) e.firstPacketTime (e.firstPacketTime + 1000) ≤
            countFrom (accepted ++ [now]) start :=
          countIn_le_countFrom fun t _ hlo _ => hsame ▸ hlo
        omega
      · rw [countIn_snoc_of_out (by omega)]
        exact hwindow
  · intro a
    by_cases hin : a ≤ now ∧ now ≤ a + 1000
    · have hcover : countIn (accepted ++ [now]) a (a + 1000) ≤
          countIn (accepted ++ [now]) (start - 1000) (start - 1) +
            countFrom (accepted ++ [now]) start :=
        countIn_le_add fun t _ hlo _ hcut => by omega
      have hprevious := h.previous
      rw [@countIn_snoc_of_out _ _ accepted (start - 1000) (start - 1) now (by omega)] at hcover
      omega
    · rw [countIn_snoc_of_out hin]
      exact h.interval a

/-- A packet behind a ban is let through within the window of the entry; no call
has opened that window. -/
theorem restart (h : Windows maxPerSecond accepted opened e start) (hmax : 1 ≤ maxPerSecond)
    (hbanned : e.isBanned = true) (hover : e.banUntil ≤ now)
    (hwithin : now - e.firstPacketTime ≤ 1000) :
    Windows maxPerSecond (accepted ++ [now]) opened
      { e.released with packetCount := 1 } now := by
  have hgap : ∀ t ∈ accepted, t + 2000 ≤ now := by
    intro t ht
    exact (h.banned hbanned t ht).trans hover
  have hopened : opened = [] := by
    rcases h.current with hempty | ⟨-, -, hend, -⟩
    · exact hempty
    · have hlong := hend hbanned
      omega
  have hnone : countFrom accepted now = 0 := countFrom_eq_zero fun t ht => by
    have hle := hgap t ht
    omega
  have hfrom : countFrom (accepted ++ [now]) now ≤ 1 := by
    rw [← Nat.zero_add 1, ← hnone]
    exact countFrom_snoc_le
  have hfirst := e.released_firstPacketTime
  have hnot : ¬ e.released.isBanned = true := by
    rw [e.released_isBanned]
    exact Bool.false_ne_true
  constructor
  · dsimp only
    omega
  · omega
  · rw [countIn_snoc_of_out (by omega), countIn_eq_zero fun t ht => by
      have hle := hgap t ht
      omega]
    omega
  · dsimp only
    omega
  · intro t ht
    dsimp only
    rcases List.mem_append.mp ht with hold | hnew
    · have hearly := h.early t hold
      omega
    · rw [List.mem_singleton.mp hnew]
      omega
  · refine Or.inr fun t ht hlt => ?_
    rcases List.mem_append.mp ht with hold | hnew
    · have hle := hgap t hold
      omega
    · rw [List.mem_singleton.mp hnew] at hlt
      exact absurd hlt (Int.lt_irrefl now)
  · exact fun hyes => absurd hyes hnot
  · exact Or.inl hopened
  · intro w hw
    rw [hopened] at hw
    cases hw
  · intro a
    by_cases hin : a ≤ now ∧ now ≤ a + 1000
    · rw [countIn_snoc_of_in hin.1 hin.2, countIn_eq_zero fun t ht => by
        have hle := hgap t ht
        omega]
      omega
    · rw [countIn_snoc_of_out hin]
      exact h.interval a

/-- A packet above the limit. -/
theorem violate (h : Windows maxPerSecond accepted opened e start) :
    Windows maxPerSecond accepted opened (e.violated now) start := by
  have hcounted : (countFrom accepted start : Int) ≤ e.packetCount + 1 :=
    h.counted.trans (Int.le_add_of_nonneg_right Int.one_nonneg)
  exact { h with counted := hcounted }

/-- A ban of two seconds or more ends behind the window. -/
theorem ban (h : Windows maxPerSecond accepted opened e start) {until_ : Int}
    (hpast : ∀ t ∈ accepted, t ≤ now) (hlong : now + 2000 ≤ until_) :
    Windows maxPerSecond accepted opened
      { e with banUntil := until_, isBanned := true } start := by
  refine { h with banned := ?_, current := ?_ }
  · intro _ t ht
    have hle := hpast t ht
    dsimp only
    omega
  · rcases h.current with hempty | ⟨hfirst, hsame, -, hopened⟩
    · exact Or.inl hempty
    · refine Or.inr ⟨hfirst, hsame, fun _ => ?_, hopened⟩
      have hle := hpast _ hfirst
      dsimp only
      omega

theorem initial (hmax : 1 ≤ maxPerSecond) (hstart : start ≤ 1000) :
    Windows maxPerSecond [] [] {} start where
  counted := Int.le_refl 0
  limited := Int.le_trans Int.one_nonneg hmax
  previous := Int.le_trans Int.one_nonneg hmax
  started := hstart
  early := by simp
  apart := Or.inr (by simp)
  banned := by simp
  current := Or.inl rfl
  window := by simp
  interval a := by
    change (0 : Int) ≤ 2 * maxPerSecond
    omega

/-- One call keeps the count of the windows. -/
theorem step {config : AntiDDoSConfig} (h : Windows maxPerSecond accepted opened e start)
    (hmax : 1 ≤ maxPerSecond)
    (hlong : 2 ≤ config.calculateBanDuration (max 1 config.violationThreshold))
    (hcounted : AntiDDoS.Counted config e) (hstart : start ≤ now)
    (hpast : ∀ t ∈ accepted, t ≤ now) :
    ∃ start' ≤ now, Windows maxPerSecond
      (accepted ++ acceptedTimes [⟨now, e, e.checkFloodGeneric config maxPerSecond now⟩])
      (opened ++ openedTimes [⟨now, e, e.checkFloodGeneric config maxPerSecond now⟩])
      (e.checkFloodGeneric config maxPerSecond now).entry start' := by
  have hlength := (@AntiDDoS.Counted.checkFloodGeneric config now e hcounted maxPerSecond).2
  have hfirst := e.released_firstPacketTime
  -- behind a ban the limit is not reached by the first packet
  have hreleased : maxPerSecond < e.released.packetCount + 1 → e.released = e := by
    intro hcount
    unfold FloodEntry.released at hcount ⊢
    split_ifs at hcount ⊢ with hbanned
    · dsimp only at hcount
      omega
    · rfl
  generalize hverdict : e.checkFloodGeneric config maxPerSecond now = verdict at hlength ⊢
  have hstep := e.floodStep config maxPerSecond now
  rw [hverdict] at hstep
  cases hstep with
  | active =>
      refine ⟨start, hstart, ?_⟩
      simpa [acceptedTimes, openedTimes, FloodCall.isAccepted, FloodCall.opens] using h
  | opened hover hlate =>
      refine ⟨now, Int.le_refl now, ?_⟩
      have hne : now ≠ e.firstPacketTime := by omega
      simpa [acceptedTimes, openedTimes, FloodCall.isAccepted, FloodCall.opens, hne] using
        h.openWindow hmax hlate
  | accepted hover hwithin hcount =>
      cases hbanned : e.isBanned with
      | false =>
          have hsame : e.released = e := by simp [FloodEntry.released, hbanned]
          refine ⟨start, hstart, ?_⟩
          rw [hsame] at hcount ⊢
          simpa [acceptedTimes, openedTimes, FloodCall.isAccepted, FloodCall.opens] using
            h.accept hstart hpast hbanned hwithin hcount
      | true =>
          have hzero : e.released.packetCount = 0 := by simp [FloodEntry.released, hbanned]
          refine ⟨now, Int.le_refl now, ?_⟩
          rw [hzero]
          simpa [acceptedTimes, openedTimes, FloodCall.isAccepted, FloodCall.opens, hfirst] using
            h.restart hmax hbanned (hover hbanned) hwithin
  | warned hover hwithin hcount hviolations =>
      refine ⟨start, hstart, ?_⟩
      rw [hreleased hcount]
      simpa [acceptedTimes, openedTimes, FloodCall.isAccepted, FloodCall.opens,
        FloodEntry.violated] using @violate _ _ now _ _ _ h
  | banned hover hwithin hcount hviolations =>
      refine ⟨start, hstart, ?_⟩
      have hends := hlength rfl
      dsimp only at hends
      rw [hreleased hcount] at hends ⊢
      simpa [acceptedTimes, openedTimes, FloodCall.isAccepted, FloodCall.opens,
        FloodEntry.violated] using (@violate _ _ now _ _ _ h).ban hpast (by omega)

end Windows

section Calls

variable {config : AntiDDoSConfig} {maxPerSecond : Int}

theorem acceptedTimes_append (first second : List FloodCall) :
    acceptedTimes (first ++ second) = acceptedTimes first ++ acceptedTimes second := by
  unfold acceptedTimes
  rw [List.filter_append, List.map_append]

theorem openedTimes_append (first second : List FloodCall) :
    openedTimes (first ++ second) = openedTimes first ++ openedTimes second := by
  unfold openedTimes
  rw [List.filter_append, List.map_append]

/-- Only the time of the call can be let through by it. -/
theorem mem_acceptedTimes_singleton {c : FloodCall} {t : Int} (ht : t ∈ acceptedTimes [c]) :
    t = c.now := by
  obtain ⟨d, hd, rfl⟩ := List.mem_map.mp ht
  rw [List.mem_singleton.mp (List.mem_of_mem_filter hd)]

/-- A run of calls keeps the count of the windows. -/
theorem Windows.run (hmax : 1 ≤ maxPerSecond)
    (hlong : 2 ≤ config.calculateBanDuration (max 1 config.violationThreshold))
    (times : List Int) (hsorted : times.Pairwise (· ≤ ·)) {calls : List FloodCall}
    {e : FloodEntry} {start : Int}
    (h : Windows maxPerSecond (acceptedTimes calls) (openedTimes calls) e start)
    (hcounted : AntiDDoS.Counted config e) (hstart : ∀ now ∈ times, start ≤ now)
    (hpast : ∀ now ∈ times, ∀ t ∈ acceptedTimes calls, t ≤ now) :
    ∃ e' start', Windows maxPerSecond
      (acceptedTimes (calls ++ e.calls config maxPerSecond times))
      (openedTimes (calls ++ e.calls config maxPerSecond times)) e' start' := by
  induction times generalizing calls e start with
  | nil => exact ⟨e, start, by rw [FloodEntry.calls, List.append_nil]; exact h⟩
  | cons now times ih =>
      obtain ⟨hlater, hrest⟩ := List.pairwise_cons.mp hsorted
      obtain ⟨start', hstart', hnext⟩ := h.step hmax hlong hcounted
        (hstart now (List.mem_cons_self ..)) (hpast now (List.mem_cons_self ..))
      rw [← acceptedTimes_append, ← openedTimes_append] at hnext
      rw [FloodEntry.calls, List.append_cons]
      apply ih hrest hnext (hcounted.checkFloodGeneric _).1
      · intro later hin
        exact hstart'.trans (hlater later hin)
      · intro later hin t ht
        rw [acceptedTimes_append] at ht
        rcases List.mem_append.mp ht with hold | hnew
        · exact hpast later (List.mem_cons_of_mem _ hin) t hold
        · rw [mem_acceptedTimes_singleton hnew]
          exact hlater later hin

theorem verdict_of_mem_calls {e : FloodEntry} (times : List Int) {c : FloodCall}
    (hc : c ∈ e.calls config maxPerSecond times) :
    c.verdict = c.before.checkFloodGeneric config maxPerSecond c.now := by
  induction times generalizing e with
  | nil => cases hc
  | cons now times ih =>
      rcases List.mem_cons.mp hc with rfl | hrest
      · rfl
      · exact ih hrest

/-- With bans of two seconds or more no window lets through more packets than
the limit, no second more than two times the limit, and no ban any. -/
theorem limited_of_long_bans (hmax : 1 ≤ maxPerSecond)
    (hlong : 2 ≤ config.calculateBanDuration (max 1 config.violationThreshold))
    (times : List Int) (hsorted : times.Pairwise (· ≤ ·)) :
    Limited maxPerSecond (FloodEntry.calls config maxPerSecond {} times) := by
  obtain ⟨e', start', hwindows⟩ : ∃ e' start', Windows maxPerSecond
      (acceptedTimes (FloodEntry.calls config maxPerSecond {} times))
      (openedTimes (FloodEntry.calls config maxPerSecond {} times)) e' start' := by
    obtain ⟨start, hle, hstart⟩ : ∃ start ≤ (1000 : Int), ∀ now ∈ times, start ≤ now := by
      cases times with
      | nil => exact ⟨0, by decide, by simp⟩
      | cons first times =>
          refine ⟨min 0 first, (Int.min_le_left _ _).trans (by decide), ?_⟩
          intro now hnow
          apply (Int.min_le_right _ _).trans
          rcases List.mem_cons.mp hnow with rfl | hlater
          · exact Int.le_refl _
          · exact (List.pairwise_cons.mp hsorted).1 now hlater
    exact @Windows.run config maxPerSecond hmax hlong times hsorted [] {} start
      (Windows.initial hmax hle) (AntiDDoS.counted_zero rfl) hstart (by simp [acceptedTimes])
  refine ⟨hwindows.window, hwindows.interval, ?_⟩
  intro c hc hbanned hnow
  rw [FloodCall.isAccepted, verdict_of_mem_calls times hc, FloodEntry.checkFloodGeneric,
    if_pos ⟨hbanned, hnow⟩]
  rfl

/-- The texts of an address under the limits of the server. -/
theorem texts_are_limited : Limited 30 (FloodEntry.calls {} 30 {} (List.replicate 40 5000)) :=
  limited_of_long_bans (by decide) (by decide) _ (by decide)

/-- A ban of one second ends within the window, whose packets are then counted
anew. -/
theorem short_ban_ends_in_window :
    ¬ ∀ (config : AntiDDoSConfig) (maxPerSecond : Int) (times : List Int),
      times.Pairwise (· ≤ ·) →
      Limited maxPerSecond (FloodEntry.calls config maxPerSecond {} times) := by
  intro h
  have hlimited := h { banDurationSeconds := 1, violationThreshold := 1 } 1
    [5000, 5000, 6000] (by decide)
  exact absurd (hlimited.window 5000 (by decide)) (by decide)

/-- The entry behind some calls. -/
def FloodEntry.after (config : AntiDDoSConfig) (maxPerSecond : Int) (e : FloodEntry)
    (times : List Int) : FloodEntry :=
  times.foldl (fun e now => (e.checkFloodGeneric config maxPerSecond now).entry) e

theorem calls_append (e : FloodEntry) (first second : List Int) :
    e.calls config maxPerSecond (first ++ second) =
      e.calls config maxPerSecond first ++
        (e.after config maxPerSecond first).calls config maxPerSecond second := by
  induction first generalizing e with
  | nil => rfl
  | cons now first ih =>
      rw [List.cons_append, FloodEntry.calls, FloodEntry.calls, ih, List.cons_append]
      rfl

/-- A packet within the limit. -/
theorem check_accepted {e : FloodEntry} {now : Int} (hbanned : e.isBanned = false)
    (hwithin : now - e.firstPacketTime ≤ 1000) (hcount : e.packetCount + 1 ≤ maxPerSecond) :
    e.checkFloodGeneric config maxPerSecond now =
      ⟨false, { e with packetCount := e.packetCount + 1 }, false⟩ := by
  have hlate : ¬ 1000 < now - e.firstPacketTime := Int.not_lt.mpr hwithin
  have hover : ¬ maxPerSecond < e.packetCount + 1 := Int.not_lt.mpr hcount
  simp [FloodEntry.checkFloodGeneric, hbanned, hlate, hover]

/-- As many packets at one time as the limit still allows. -/
theorem calls_accepted {e : FloodEntry} {now : Int} (hbanned : e.isBanned = false)
    (hwithin : now - e.firstPacketTime ≤ 1000) (n : Nat)
    (hcount : e.packetCount + n ≤ maxPerSecond) :
    e.after config maxPerSecond (List.replicate n now) =
        { e with packetCount := e.packetCount + n } ∧
      acceptedTimes (e.calls config maxPerSecond (List.replicate n now)) =
        List.replicate n now := by
  induction n generalizing e with
  | zero =>
      constructor
      · simp [FloodEntry.after]
      · rfl
  | succ n ih =>
      have hfirst := @check_accepted config maxPerSecond e now hbanned hwithin (by omega)
      obtain ⟨hafter, htimes⟩ := @ih { e with packetCount := e.packetCount + 1 } hbanned hwithin
        (by dsimp only; omega)
      rw [List.replicate_succ]
      constructor
      · rw [FloodEntry.after, List.foldl_cons, hfirst, ← FloodEntry.after, hafter]
        dsimp only
        congr 1
        omega
      · rw [FloodEntry.calls, hfirst]
        change now :: acceptedTimes _ = _
        rw [htimes]

/-- Packets above the limit, as many as bring no ban. -/
theorem after_violated {e : FloodEntry} {now : Int} (hbanned : e.isBanned = false)
    (hwithin : now - e.firstPacketTime ≤ 1000) (hfull : maxPerSecond ≤ e.packetCount)
    (hzero : 0 ≤ e.violationCount) (n : Nat)
    (hviolations : e.violationCount + n < max 1 config.violationThreshold) :
    let last := e.after config maxPerSecond (List.replicate n now)
    last.isBanned = false ∧ last.firstPacketTime = e.firstPacketTime ∧
      maxPerSecond ≤ last.packetCount ∧ last.violationCount = e.violationCount + n := by
  induction n generalizing e with
  | zero => simp [FloodEntry.after, hbanned, hfull]
  | succ n ih =>
      have hlate : ¬ 1000 < now - e.firstPacketTime := Int.not_lt.mpr hwithin
      have habove : maxPerSecond < e.packetCount + 1 := by omega
      have hbelow : ¬ config.violationThreshold ≤ e.violationCount + 1 := by omega
      have hfirst : (e.checkFloodGeneric config maxPerSecond now).entry = e.violated now := by
        simp [FloodEntry.checkFloodGeneric, hbanned, hlate, habove, hbelow,
          FloodEntry.violated]
      obtain ⟨hstill, hstart, hcount, hviolated⟩ := @ih (e.violated now) hbanned hwithin
        (by dsimp only [FloodEntry.violated]; omega)
        (by dsimp only [FloodEntry.violated]; omega)
        (by dsimp only [FloodEntry.violated]; omega)
      rw [List.replicate_succ, FloodEntry.after, List.foldl_cons, hfirst, ← FloodEntry.after]
      refine ⟨hstill, hstart, hcount, hviolated.trans ?_⟩
      dsimp only [FloodEntry.violated]
      omega

/-- A ban, and the first packet behind it. -/
theorem calls_behind_ban {e : FloodEntry} {now : Int} (hbanned : e.isBanned = false)
    (hopened : e.firstPacketTime = now) (hfull : maxPerSecond ≤ e.packetCount)
    (hmax : 1 ≤ maxPerSecond)
    (hviolations : config.violationThreshold ≤ e.violationCount + 1)
    (hshort : config.calculateBanDuration (e.violationCount + 1) ≤ 1) :
    acceptedTimes (e.calls config maxPerSecond [now, now + 1000]) = [now + 1000] := by
  have hlate : ¬ 1000 < now - e.firstPacketTime := by omega
  have hnext : ¬ 1000 < now + 1000 - e.firstPacketTime := by omega
  have habove : maxPerSecond < e.packetCount + 1 := by omega
  have hover : ¬ now + 1000 <
      now + config.calculateBanDuration (e.violationCount + 1) * 1000 := by omega
  have hone : ¬ maxPerSecond < 1 := by omega
  simp [FloodEntry.calls, FloodEntry.checkFloodGeneric, hbanned, hlate, habove, hviolations,
    hover, hnext, hone, acceptedTimes, FloodCall.isAccepted]

/-- Packets up to the limit and on to the threshold, all at one time, and one
more a second later, when a short ban is over. -/
theorem exceeded_of_short_ban (hmax : 1 ≤ maxPerSecond)
    (hshort : config.calculateBanDuration (max 1 config.violationThreshold) ≤ 1) :
    ∃ times : List Int, times.Pairwise (· ≤ ·) ∧
      let calls := FloodEntry.calls config maxPerSecond {} times
      5000 ∈ openedTimes calls ∧
        maxPerSecond < countIn (acceptedTimes calls) 5000 6000 := by
  obtain ⟨m, rfl⟩ : ∃ m : Nat, maxPerSecond = 1 + m := ⟨(maxPerSecond - 1).toNat, by omega⟩
  obtain ⟨k, hk⟩ : ∃ k : Nat, max 1 config.violationThreshold = 1 + k :=
    ⟨(max 1 config.violationThreshold - 1).toNat, by omega⟩
  have hopen : FloodEntry.checkFloodGeneric config (1 + m) 5000 {} =
      ⟨false, { firstPacketTime := 5000, packetCount := 1 }, false⟩ := by
    simp [FloodEntry.checkFloodGeneric]
  obtain ⟨hfull, htimes⟩ : FloodEntry.after config (1 + m)
        { firstPacketTime := 5000, packetCount := 1 } (List.replicate m 5000) =
          { firstPacketTime := 5000, packetCount := 1 + m } ∧ _ :=
    calls_accepted rfl (by decide) m (Int.le_refl _)
  obtain ⟨hbanned, hfirst, hcount, hviolations⟩ := @after_violated config (1 + m)
    { firstPacketTime := 5000, packetCount := 1 + m } 5000 rfl (by simp) (Int.le_refl _)
    (Int.le_refl 0) k (by dsimp only; omega)
  have hreached : (FloodEntry.after config (1 + m) { firstPacketTime := 5000, packetCount := 1 + m }
      (List.replicate k 5000)).violationCount + 1 = max 1 config.violationThreshold := by
    rw [hviolations, hk]
    dsimp only
    omega
  have hlast := @calls_behind_ban config (1 + m) _ 5000 hbanned hfirst hcount hmax
    (by omega) (by rw [hreached]; exact hshort)
  refine ⟨5000 :: (List.replicate m 5000 ++ (List.replicate k 5000 ++ [5000, 5000 + 1000])), ?_, ?_⟩
  · simp only [List.pairwise_cons, List.pairwise_append, List.pairwise_replicate,
      List.mem_append, List.mem_replicate, List.mem_cons]
    grind
  · rw [FloodEntry.calls, hopen]
    dsimp only
    rw [calls_append, calls_append, hfull]
    refine ⟨List.mem_cons_self .., ?_⟩
    change _ < ((countIn (5000 :: acceptedTimes _) 5000 6000 : Nat) : Int)
    rw [acceptedTimes_append, acceptedTimes_append, htimes, hlast]
    rw [countIn_cons_of_in (by decide) (by decide), countIn_append, countIn_append,
      countIn_replicate_of_in (by decide) (by decide),
      countIn_cons_of_in (by decide) (by decide)]
    omega

/-- The limits hold for no other configuration: without a limit of one packet and
bans of two seconds there are calls that exceed them. -/
theorem long_bans_of_limited
    (h : ∀ times : List Int, times.Pairwise (· ≤ ·) →
      Limited maxPerSecond (FloodEntry.calls config maxPerSecond {} times)) :
    1 ≤ maxPerSecond ∧
      2 ≤ config.calculateBanDuration (max 1 config.violationThreshold) := by
  have hmax : 1 ≤ maxPerSecond := by
    have hwindow := (h [5000] (List.pairwise_singleton _ _)).window 5000
    simpa [FloodEntry.calls, FloodEntry.checkFloodGeneric, openedTimes, acceptedTimes,
      FloodCall.opens, FloodCall.isAccepted, countIn] using hwindow
  refine ⟨hmax, ?_⟩
  by_contra hshort
  obtain ⟨times, hsorted, hopened, hexceeded⟩ :=
    @exceeded_of_short_ban config maxPerSecond hmax (by omega)
  exact absurd ((h times hsorted).window 5000 hopened) (Int.not_le.mpr hexceeded)

end Calls

end NopyServer
