/-
The limit on the generic texts of a peer.  The end of a window is a time of
milliseconds that is kept in an `int`; a window is opened by the first text
after the last window was closed, and closed by the first text after its end,
which is counted in neither.
-/
import NopyServer.Text

namespace NopyServer

namespace PacketRate

/-- A generic text, with the two readings of the clock that its handling makes:
one when it opens a window, and one to look at the window. -/
structure Packet where
  cch : String := ""
  opened : Int
  now : Int

/-- `isASCII`. -/
def isASCII (s : String) : Bool := s.toList.all fun c => c.toNat ≤ 127

/-- The actions that are dropped before they are counted. -/
def ignoredActions : List String :=
  ["action|getDRAnimations", "action|refresh_player_tribute_data",
    "action|get_seed_diary_data", "action|survey", "action|setFilter",
    "action|complete_seeddiary_tutorial"]

/-- Whether a text is counted. -/
def counted (p : Packet) : Bool :=
  isASCII p.cch && !ignoredActions.any (textFind p.cch)

/-- `packetSent`. -/
structure PacketSent where
  lastActionSent : Int := 0
  totalActionSent : Int := 0
deriving DecidableEq

/-- The end of the window is set when there is none. -/
def PacketSent.start (sent : PacketSent) (opened : Int) : PacketSent :=
  if sent.lastActionSent = 0 then { sent with lastActionSent := int32 (opened + 1000) }
  else sent

/-- The text is counted, or the window is closed. -/
def PacketSent.count (sent : PacketSent) (now : Int) : PacketSent :=
  if now ≤ sent.lastActionSent then { sent with totalActionSent := sent.totalActionSent + 1 }
  else { lastActionSent := 0, totalActionSent := 0 }

/-- The handling of a text as far as its rate goes; nothing is left of the peer
once it is disconnected. -/
def receive (peer : Option PacketSent) (p : Packet) : Option PacketSent :=
  match peer with
  | none => none
  | some sent =>
      if counted p then
        let sent := (sent.start p.opened).count p.now
        if 10 ≤ sent.totalActionSent then none else some sent
      else some sent

/-- The peer after some texts. -/
def run (packets : List Packet) : Option PacketSent := packets.foldl receive (some {})

/-- The windows of some counted texts: each is opened by the first one after the
last window was closed, and the first text behind its end closes it. -/
def windows : List Packet → List (List Packet)
  | [] => []
  | p :: rest =>
      let inside := fun q : Packet => decide (q.now ≤ p.opened + 1000)
      (p :: rest).takeWhile inside :: windows (((p :: rest).dropWhile inside).tail)
termination_by packets => packets.length
decreasing_by
  have hle := (List.dropWhile_suffix
    (fun q : Packet => decide (q.now ≤ p.opened + 1000)) (l := p :: rest)).length_le
  simp only [List.length_tail, List.length_cons] at hle ⊢
  omega

/-- The peer sent ten counted texts within one window. -/
def Spams (packets : List Packet) : Prop :=
  ∃ window ∈ windows (packets.filter counted), 10 ≤ window.length

/-- The clock at which an `int` can hold the end of a window. -/
def EarlyClock (p : Packet) : Prop := 0 ≤ p.opened ∧ p.opened + 1000 < 2 ^ 31

instance (p : Packet) : Decidable (EarlyClock p) := inferInstanceAs (Decidable (_ ∧ _))

section Windows

/-- A text that is not counted changes nothing. -/
theorem receive_ignored {p : Packet} (hp : counted p = false) (peer : Option PacketSent) :
    receive peer p = peer := by
  cases peer with
  | none => rfl
  | some sent => simp [receive, hp]

/-- Only the counted texts matter. -/
theorem foldl_receive_filter (packets : List Packet) (peer : Option PacketSent) :
    packets.foldl receive peer = (packets.filter counted).foldl receive peer := by
  induction packets generalizing peer with
  | nil => rfl
  | cons p packets ih =>
      cases hp : counted p with
      | false =>
          rw [List.foldl_cons, receive_ignored hp, List.filter_cons_of_neg (by simp [hp]), ih]
      | true => rw [List.foldl_cons, List.filter_cons_of_pos hp, List.foldl_cons, ih]

theorem foldl_receive_none (packets : List Packet) : packets.foldl receive none = none := by
  induction packets with
  | nil => rfl
  | cons p packets ih => exact ih

/-- A text within the window. -/
theorem receive_inside {p : Packet} {sent : PacketSent} (hp : counted p = true)
    (hopen : sent.lastActionSent ≠ 0) (hin : p.now ≤ sent.lastActionSent) :
    receive (some sent) p =
      if 10 ≤ sent.totalActionSent + 1 then none
      else some { sent with totalActionSent := sent.totalActionSent + 1 } := by
  simp [receive, hp, PacketSent.start, PacketSent.count, hopen, hin]

/-- A text behind the end of the window. -/
theorem receive_outside {p : Packet} {sent : PacketSent} (hp : counted p = true)
    (hopen : sent.lastActionSent ≠ 0) (hout : ¬ p.now ≤ sent.lastActionSent) :
    receive (some sent) p = some {} := by
  simp [receive, hp, PacketSent.start, PacketSent.count, hopen, hout]

/-- A text that finds no window is handled like one within the window it
opens. -/
theorem receive_opens {p : Packet} (hp : counted p = true) (hclock : EarlyClock p) :
    receive (some {}) p = receive (some { lastActionSent := p.opened + 1000 }) p := by
  obtain ⟨hpos, hfits⟩ := hclock
  have hend : int32 (p.opened + 1000) = p.opened + 1000 := int32_of_range (by omega) hfits
  have hne : p.opened + 1000 ≠ 0 := by omega
  simp [receive, hp, PacketSent.start, hend, hne]

/-- The texts up to the end of a window, and the one that closes it. -/
theorem foldl_receive_window {ending : Int} (hopen : ending ≠ 0) (packets : List Packet)
    (hcounted : ∀ p ∈ packets, counted p = true) {total : Nat} (htotal : total < 10) :
    packets.foldl receive (some ⟨ending, total⟩) = none ↔
      10 ≤ total + (packets.takeWhile fun q => q.now ≤ ending).length ∨
        (packets.dropWhile fun q => q.now ≤ ending).tail.foldl receive (some {}) = none := by
  induction packets generalizing total with
  | nil =>
      simp
      omega
  | cons p packets ih =>
      obtain ⟨hp, hrest⟩ := List.forall_mem_cons.mp hcounted
      by_cases hin : p.now ≤ ending
      · rw [List.foldl_cons, receive_inside hp hopen hin,
          List.takeWhile_cons_of_pos (by simpa using hin),
          List.dropWhile_cons_of_pos (by simpa using hin), List.length_cons]
        by_cases hfull : total + 1 = 10
        · rw [if_pos (by dsimp only; omega), foldl_receive_none]
          simp
          omega
        · have hnext := @ih hrest (total + 1) (by omega)
          rw [if_neg (by dsimp only; omega)]
          push_cast at hnext
          rw [hnext, Nat.add_assoc, Nat.add_comm 1]
      · rw [List.foldl_cons, receive_outside hp hopen hin,
          List.takeWhile_cons_of_neg (by simpa using hin),
          List.dropWhile_cons_of_neg (by simpa using hin), List.tail_cons]
        simp
        omega

/-- While the clock is early a peer is disconnected at its tenth counted text
within a window. -/
theorem foldl_receive_eq_none_iff (packets : List Packet)
    (hcounted : ∀ p ∈ packets, counted p = true) (hclock : ∀ p ∈ packets, EarlyClock p) :
    packets.foldl receive (some {}) = none ↔
      ∃ window ∈ windows packets, 10 ≤ window.length := by
  induction packets using windows.induct with
  | case1 => simp [windows]
  | case2 p rest inside ih =>
      have hearly := hclock p (List.mem_cons_self ..)
      have hopen : p.opened + 1000 ≠ 0 := by
        have hpos := hearly.1
        omega
      have hopens : (p :: rest).foldl receive (some {}) =
          (p :: rest).foldl receive (some ⟨p.opened + 1000, (0 : Nat)⟩) :=
        congrArg (rest.foldl receive ·)
          (receive_opens (hcounted p (List.mem_cons_self ..)) hearly)
      have hlater : ∀ q ∈ ((p :: rest).dropWhile inside).tail, q ∈ p :: rest := by
        intro q hq
        exact (List.dropWhile_sublist inside).mem (List.mem_of_mem_tail hq)
      have hrest := ih (fun q hq => hcounted q (hlater q hq)) (fun q hq => hclock q (hlater q hq))
      rw [hopens, foldl_receive_window hopen _ hcounted (by decide), windows]
      simp only [List.mem_cons, exists_eq_or_imp, Nat.zero_add]
      rw [hrest]

/-- At a later clock every counted text finds its window closed. -/
theorem receive_late {p : Packet} (hclock : 2 ^ 31 ≤ p.now) :
    receive (some {}) p = some {} := by
  cases hp : counted p with
  | false => exact receive_ignored hp _
  | true =>
      have hend : int32 (p.opened + 1000) < 2 ^ 31 := by
        unfold int32
        rw [Int.bmod_def]
        split <;> omega
      have hclosed : ¬ p.now ≤ int32 (p.opened + 1000) := by omega
      simp [receive, hp, PacketSent.start, PacketSent.count, hclosed]

theorem foldl_receive_late (packets : List Packet)
    (hclock : ∀ p ∈ packets, 2 ^ 31 ≤ p.now) : packets.foldl receive (some {}) = some {} := by
  induction packets with
  | nil => rfl
  | cons p packets ih =>
      obtain ⟨hp, hrest⟩ := List.forall_mem_cons.mp hclock
      rw [List.foldl_cons, receive_late hp, ih hrest]

/-- A peer is disconnected exactly for ten counted texts within a window, as
long as an `int` can hold the end of the windows, and never when the clock is
behind every `int`. -/
theorem run_eq_none_iff (packets : List Packet) :
    ((∀ p ∈ packets, counted p = true → EarlyClock p) →
      (run packets = none ↔ Spams packets)) ∧
    ((∀ p ∈ packets, counted p = true → 2 ^ 31 ≤ p.now) → run packets ≠ none) := by
  have hmem : ∀ p ∈ packets.filter counted, p ∈ packets ∧ counted p = true :=
    fun p hp => List.mem_filter.mp hp
  unfold run Spams
  rw [foldl_receive_filter]
  constructor
  · intro hclock
    exact foldl_receive_eq_none_iff _ (fun p hp => (hmem p hp).2)
      fun p hp => hclock p (hmem p hp).1 (hmem p hp).2
  · intro hclock
    rw [foldl_receive_late _ fun p hp => hclock p (hmem p hp).1 (hmem p hp).2]
    exact Option.some_ne_none _

/-- Ten texts at one time. -/
def tenTexts (now : Int) : List Packet := List.replicate 10 { opened := now, now := now }

theorem spams_tenTexts (now : Int) : Spams (tenTexts now) := by
  have hcounted : (tenTexts now).filter counted = tenTexts now := by
    apply List.filter_eq_self.mpr
    intro p hp
    rw [List.eq_of_mem_replicate hp]
    rfl
  refine ⟨tenTexts now, ?_, Nat.le_refl 10⟩
  rw [hcounted]
  change _ ∈ windows (_ :: _)
  rw [windows]
  have hinside : now ≤ now + 1000 := by omega
  simp [tenTexts, hinside, List.takeWhile]

theorem tenTexts_disconnect : run (tenTexts 5000) = none :=
  ((run_eq_none_iff (tenTexts 5000)).1 (by decide)).mpr (spams_tenTexts 5000)

/-- At a time of the year 2023 the tenth text within a window is let through. -/
theorem tenTexts_are_let_through :
    ¬ ∀ packets : List Packet, (packets.map Packet.now).Pairwise (· ≤ ·) →
      (run packets = none ↔ Spams packets) := by
  intro h
  have hspams := (h (tenTexts 1700000000000) (by decide)).mpr (spams_tenTexts _)
  exact absurd hspams (by decide)

end Windows

end PacketRate

end NopyServer
