/-
The main loop.  Each round takes events from ENet until there is none, hands
them to the event switch, and then ticks the harvest jobs and the worlds.  The
cap on a round is looked at after the event has been taken and before it is
handed on, so the hundredth event of a round is lost.
-/
import Mathlib.Data.List.Induction

namespace NopyServer

namespace EventPump

/-- `ENetEventType`. -/
inductive ENetEventType where
  | none
  | connect
  | disconnect
  | receive
deriving DecidableEq

/-- `ENetEvent`; a peer is its place in `server->peers`. -/
structure ENetEvent where
  type : ENetEventType
  peer : Option Nat
  packet : List UInt8 := []
deriving DecidableEq

/-- What `enet_host_service` returns: an event, or zero or a failure. -/
inductive Answer where
  | event (e : ENetEvent)
  | nothing

/-- The work that the loop calls on a server of type `σ`. -/
structure Work (σ : Type) where
  /-- The switch on the event, and whether it came to its end; an exception
  leaves the round. -/
  handle : ENetEvent → σ → σ × Bool
  /-- What follows the events of a round. -/
  tick : σ → σ

/-- The main loop between two calls of `enet_host_service`. -/
structure MainLoop (σ : Type) where
  server : σ
  eventsProcessed : Nat := 0
  /-- The events that were handed to the switch, in order. -/
  dispatched : List ENetEvent := []

variable {σ : Type}

/-- The end of a round and the beginning of the next. -/
def MainLoop.nextRound (work : Work σ) (loop : MainLoop σ) : MainLoop σ :=
  { loop with server := work.tick loop.server, eventsProcessed := 0 }

/-- The switch on an event; an exception is caught outside of the round. -/
def MainLoop.dispatch (work : Work σ) (loop : MainLoop σ) (e : ENetEvent) :
    MainLoop σ :=
  let (server, returned) := work.handle e loop.server
  { server := server
    eventsProcessed := if returned then loop.eventsProcessed + 1 else 0
    dispatched := loop.dispatched ++ [e] }

/-- The loop from one call of `enet_host_service` to the next. -/
def step (work : Work σ) (loop : MainLoop σ) : Answer → MainLoop σ
  | .nothing => loop.nextRound work
  | .event e =>
      if 100 ≤ loop.eventsProcessed + 1 then loop.nextRound work
      else if e.peer = none then
        { loop with eventsProcessed := loop.eventsProcessed + 1 }
      else loop.dispatch work e

/-- The loop over everything `enet_host_service` returns. -/
def run (work : Work σ) (server : σ) (answers : List Answer) : MainLoop σ :=
  answers.foldl (step work) { server := server }

/-- The event with a peer that an answer holds, if it holds one. -/
def Answer.pending : Answer → Option ENetEvent
  | .nothing => none
  | .event e => if e.peer = none then none else some e

/-- The events with a peer that were taken from ENet, in order. -/
def returned (answers : List Answer) : List ENetEvent :=
  answers.filterMap Answer.pending

/-- No event with a peer is the hundredth of its round. -/
def NoRoundFull (work : Work σ) (server : σ) (answers : List Answer) : Prop :=
  ∀ before e after, answers = before ++ .event e :: after → e.peer ≠ none →
    (run work server before).eventsProcessed ≠ 99

section Rounds

variable (work : Work σ) (server : σ) (answers : List Answer)

@[simp] theorem run_nil : run work server [] = { server := server } := rfl

@[simp] theorem run_concat (a : Answer) :
    run work server (answers ++ [a]) = step work (run work server answers) a := by
  simp [run]

@[simp] theorem returned_concat (a : Answer) :
    returned (answers ++ [a]) = returned answers ++ a.pending.toList := by
  cases h : a.pending <;> simp [returned, h]

/-- A round never counts to its cap. -/
theorem eventsProcessed_lt :
    (run work server answers).eventsProcessed < 100 := by
  induction answers using List.reverseRecOn with
  | nil => exact Nat.zero_lt_succ 99
  | append_singleton before a ih =>
      rw [run_concat]
      cases a with
      | nothing => exact Nat.zero_lt_succ 99
      | event e =>
          simp only [step]
          split_ifs with hcap
          · exact Nat.zero_lt_succ 99
          · exact Nat.not_le.mp hcap
          · dsimp only [MainLoop.dispatch]
            split_ifs
            · exact Nat.not_le.mp hcap
            · exact Nat.zero_lt_succ 99

variable {work server answers}

/-- What one answer of ENet adds to the events that were handed on. -/
theorem step_dispatched (loop : MainLoop σ) (a : Answer)
    (hcount : loop.eventsProcessed < 100) :
    (step work loop a).dispatched =
      if loop.eventsProcessed = 99 then loop.dispatched
      else loop.dispatched ++ a.pending.toList := by
  cases a with
  | nothing => simp [step, MainLoop.nextRound, Answer.pending]
  | event e =>
      by_cases hfull : loop.eventsProcessed = 99
      · simp [step, MainLoop.nextRound, hfull]
      · have hroom : ¬ 100 ≤ loop.eventsProcessed + 1 := by omega
        by_cases hpeer : e.peer = none
        · simp [step, Answer.pending, hroom, hpeer, hfull]
        · simp [step, MainLoop.dispatch, Answer.pending, hroom, hpeer, hfull]

theorem noRoundFull_concat (a : Answer) :
    NoRoundFull work server (answers ++ [a]) ↔
      NoRoundFull work server answers ∧
        (a.pending ≠ none → (run work server answers).eventsProcessed ≠ 99) := by
  constructor
  · intro hfull
    constructor
    · intro before e after hanswers
      exact hfull before e (after ++ [a]) (by simp [hanswers])
    · intro hpending
      cases a with
      | nothing => exact absurd rfl hpending
      | event e =>
          apply hfull answers e [] rfl
          intro hpeer
          exact hpending (by simp [Answer.pending, hpeer])
  · rintro ⟨hbefore, hlast⟩ before e after hanswers hpeer
    rcases List.eq_nil_or_concat after with rfl | ⟨after, last, rfl⟩
    · obtain ⟨rfl, hsame⟩ := List.append_inj' hanswers rfl
      obtain rfl : a = .event e := by simpa using hsame
      exact hlast (by simp [Answer.pending, hpeer])
    · apply hbefore before e after _ hpeer
      rw [List.concat_eq_append, ← List.cons_append, ← List.append_assoc]
        at hanswers
      exact (List.append_inj' hanswers rfl).1

/-- Nothing is handed on that was not taken from ENet. -/
theorem dispatched_length_le :
    (run work server answers).dispatched.length ≤ (returned answers).length := by
  induction answers using List.reverseRecOn with
  | nil => exact Nat.le_refl 0
  | append_singleton before a ih =>
      rw [run_concat, step_dispatched _ a (eventsProcessed_lt work server before),
        returned_concat]
      split_ifs
      · exact Nat.le_trans ih (by simp)
      · simpa using ih

end Rounds

/-- Every event with a peer is handed on once and in order exactly when no such
event is the hundredth of its round. -/
theorem dispatched_iff (work : Work σ) (server : σ) (answers : List Answer) :
    (run work server answers).dispatched = returned answers ↔
      NoRoundFull work server answers := by
  induction answers using List.reverseRecOn with
  | nil => simp [NoRoundFull, returned]
  | append_singleton before a ih =>
      rw [noRoundFull_concat, run_concat, returned_concat,
        step_dispatched _ a (eventsProcessed_lt work server before)]
      cases hpending : a.pending with
      | none => simp [ih]
      | some e =>
          split_ifs with hfull
          · have hlt : (run work server before).dispatched.length <
                (returned before ++ [e]).length := by
              simpa [Nat.lt_succ_iff] using dispatched_length_le
            constructor
            · intro hsame
              exact absurd (congrArg List.length hsame) (Nat.ne_of_lt hlt)
            · rintro ⟨-, hlast⟩
              exact absurd hfull (hlast (by simp))
          · simp [ih, hfull]

/-- A hundred packets that wait for one call of the loop. -/
theorem hundredth_event_lost :
    (run (⟨fun _ calls => (calls + 1, true), id⟩ : Work Nat) 0
        (List.replicate 100 (.event { type := .receive, peer := some 0 }))).dispatched ≠
      returned
        (List.replicate 100 (.event { type := .receive, peer := some 0 })) := by
  decide +kernel

end EventPump

end NopyServer
