/-
The gate in front of `call_dialog`.  The server remembers for a minute which
dialogs it sent to a peer; a message of the peer is let through by its name, by
a text anywhere in it, or by what the server remembers.  The last test stands
the wrong way round: a dialog that was sent is dropped, one that was not is
let through.
-/
import Mathlib.Data.List.DropRight
import NopyServer.Lib.Json
import NopyServer.Text

namespace NopyServer

namespace DialogGate

open Json

/-- The dialog names that `dialog_return` lets through by their text. -/
def alwaysAccepted : List String :=
  ["dispshelf", "abondonguild", "portrait", "artcanvas",
    "get_seed_diary_data", "mannequin_edit", "vip_edit", "weatherspcl",
    "itemaddedtosucker", "itemremovedfromsucker", "itemsucker_block",
    "autoactionblock", "blaster", "switcheroo_edit", "door_edit", "vending",
    "displayblock", "friends_ignore", "mute_friend", "block_friend",
    "friends_message", "friends_edit", "friends_options", "send_mailbox",
    "mute_all_friends", "remove_all_friends", "block_all_friends",
    "all_friends", "show_guild_logs", "guild_statement_edit",
    "guild_members_options", "guildmembers", "leave_guild", "Guild_Notebook",
    "guild_member_role_change_finish", "guild_member_role_change",
    "guild_member_remove_finish", "guild_member_remove", "guild_member_edit",
    "friends", "unaccess", "confirmguild", "createguild",
    "requestcreateguildpage", "acceptaccess", "worlds_list", "lock_edit",
    "editguildlock", "create_guild_mascot", "trash_item", "drop_item",
    "trash_item2"]

/-- The trimming of `add_name`. -/
def trimName (name : List Char) : List Char :=
  (name.rdropWhile fun c => c == '\r' || c == '\n' || c == ' ').dropWhile
    fun c => c == ' ' || c == '\t'

/-- The name a line of a dialog gives it, if the line gives one. -/
def lineName (line : List Char) : Option String :=
  let line := if line.getLast? = some '\r' then line.dropLast else line
  if "end_dialog|".toList.isPrefixOf line then
    some (String.ofList (trimName ((line.drop 11).takeWhile (· ≠ '|'))))
  else if "embed_data|dialog_name|".toList.isPrefixOf line then
    some (String.ofList (trimName (line.drop 23)))
  else none

/-- The names of a dialog that is sent. -/
def dialogNames (text : String) : List String :=
  (text.toList.splitOn '\n').filterMap lineName

/-- `pd[name] = now_ms + ttl_ms`, unless the name is empty or too long. -/
def addName (now : Int) (pd : List (String × Int)) (name : String) :
    List (String × Int) :=
  if name = "" ∨ 64 < name.length then pd
  else setKey name (now + 60000) pd

/-- `track_pending_dialog`. -/
def trackPendingDialog (now : Int) (text : String) (pd : List (String × Int)) :
    List (String × Int) :=
  let kept := pd.filter fun entry => now ≤ entry.2
  (dialogNames text).foldl (addName now) (if 64 < kept.length then [] else kept)

/-- The answer of `consume_pending_dialog`. -/
def consumes (pd : List (String × Int)) (name : String) (now : Int) : Bool :=
  pd.any fun entry => entry.1 == name && now ≤ entry.2

/-- The entries `consume_pending_dialog` leaves: an expired one is erased, one
that is found stays. -/
def consumePendingDialog (pd : List (String × Int)) (name : String)
    (now : Int) : List (String × Int) :=
  pd.filter fun entry => !(entry.1 == name && entry.2 < now)

/-- Where `dialog_return` takes a message. -/
inductive Route where
  | ignored
  | mapped
  | provider
  | guildClash
  | always
  | verified
  | unverified
deriving DecidableEq

/-- The branch of the guild clash dialogs returns only for one of its
buttons. -/
def isGuildClash (cch : String) : Bool :=
  (["guild_clash_menu_dlg", "guild_clash_lb_dlg", "guild_clash_info_dlg"].any
    fun name => textFind cch ("dialog_name|" ++ name)) &&
  (["guild_clash_leaderboard", "guild_clash_info", "guild_clash_menu",
      "warp_guild_world", "event_clash_rewards_tree"].any
    fun name => textFind cch ("buttonClicked|" ++ name))

/-- One of the accepted names stands somewhere in the message. -/
def showsAccepted (cch : String) : Bool :=
  alwaysAccepted.any fun name => textFind cch ("dialog_name|" ++ name)

/-- `dialog_return` for a message that names a dialog; `isMapped` says whether
`dialogMap` has the name. -/
def route (isMapped : String → Bool) (pd : List (String × Int)) (now : Int)
    (cch dialog : String) : Route :=
  if isMapped dialog = true then .mapped
  else if textFind cch "dialog_name|auto_ptht_action" = true then .provider
  else if isGuildClash cch = true then .guildClash
  else if showsAccepted cch = true then .always
  else if consumes pd dialog now = true then .verified
  else .unverified

/-- What a peer sees and does: dialogs that are sent to it, messages that are
received from it. -/
inductive Event where
  | sent (now : Int) (text : String)
  | received (now : Int) (cch : String)

/-- The pending dialogs after one more event. -/
def step (isMapped : String → Bool) (pd : List (String × Int)) :
    Event → List (String × Int)
  | .sent now text => trackPendingDialog now text pd
  | .received now cch =>
      match TextScanner.tryGet cch "dialog_name" with
      | none => pd
      | some dialog =>
          match route isMapped pd now cch dialog with
          | .verified => consumePendingDialog pd dialog now
          | .unverified => consumePendingDialog pd dialog now
          | _ => pd

/-- The pending dialogs after a history. -/
def pending (isMapped : String → Bool) (events : List Event) :
    List (String × Int) :=
  events.foldl (step isMapped) []

/-- The messages that reach `call_dialog`. -/
def Route.reaches : Route → Prop
  | .always => True
  | .unverified => True
  | _ => False

instance : DecidablePred Route.reaches
  | .always => instDecidableTrue
  | .unverified => instDecidableTrue
  | .ignored => instDecidableFalse
  | .mapped => instDecidableFalse
  | .provider => instDecidableFalse
  | .guildClash => instDecidableFalse
  | .verified => instDecidableFalse

/-- The server sent the dialog within the last 60 seconds, and no message has
been verified with it since. -/
def Live (isMapped : String → Bool) (events : List Event) (name : String)
    (now : Int) : Prop :=
  ∃ before sentAt text after, events = before ++ .sent sentAt text :: after ∧
    name ∈ dialogNames text ∧ now ≤ sentAt + 60000 ∧
    ∀ mid time cch rest, after = mid ++ .received time cch :: rest →
      TextScanner.tryGet cch "dialog_name" = some name →
      route isMapped (pending isMapped (before ++ .sent sentAt text :: mid))
        time cch name ≠ .verified

/-- What the gate is for. -/
structure Lawful (isMapped : String → Bool) (events : List Event) (now : Int)
    (cch dialog : String) : Prop where
  sent : isMapped dialog = false → dialog ∉ alwaysAccepted →
    (route isMapped (pending isMapped events) now cch dialog).reaches →
    Live isMapped events dialog now
  listed : route isMapped (pending isMapped events) now cch dialog = .always →
    dialog ∈ alwaysAccepted

/-- The messages that the gate handles rightly. -/
def Handled (isMapped : String → Bool) (events : List Event) (now : Int)
    (cch dialog : String) : Prop :=
  isMapped dialog = true ∨ textFind cch "dialog_name|auto_ptht_action" = true ∨
    isGuildClash cch = true ∨
    if showsAccepted cch = true then dialog ∈ alwaysAccepted
    else dialog ∈ alwaysAccepted ∨
      consumes (pending isMapped events) dialog now = true ∨
      Live isMapped events dialog now

section Gate

variable {isMapped : String → Bool} {events : List Event} {now : Int}
  {cch dialog : String}

theorem mem_of_mem_addNames {names : List String} {pd : List (String × Int)}
    {entry : String × Int} (hmem : entry ∈ names.foldl (addName now) pd) :
    (entry.1 ∈ names ∧ entry.2 = now + 60000 ∧ entry.1 ≠ "" ∧
      entry.1.length ≤ 64) ∨ entry ∈ pd := by
  induction names generalizing pd with
  | nil => exact Or.inr hmem
  | cons name rest ih =>
      rcases ih hmem with ⟨hname, hexpiry⟩ | hadded
      · exact Or.inl ⟨List.mem_cons_of_mem name hname, hexpiry⟩
      · unfold addName at hadded
        split at hadded
        · exact Or.inr hadded
        · next hsize =>
            rcases mem_of_mem_setKey hadded with rfl | hold
            · rw [not_or, Nat.not_lt] at hsize
              exact Or.inl ⟨List.mem_cons_self, rfl, hsize⟩
            · exact Or.inr hold

theorem mem_of_mem_step_received {pd : List (String × Int)}
    {entry : String × Int}
    (hmem : entry ∈ step isMapped pd (.received now cch)) : entry ∈ pd := by
  simp only [step] at hmem
  split at hmem
  · exact hmem
  · split at hmem
    · exact List.mem_of_mem_filter hmem
    · exact List.mem_of_mem_filter hmem
    · exact hmem

/-- Along every history, what is pending was sent, and it expires a minute
after that. -/
theorem pending_sent {entry : String × Int}
    (hmem : entry ∈ pending isMapped events) :
    ∃ sentAt text, .sent sentAt text ∈ events ∧ entry.1 ∈ dialogNames text ∧
      entry.2 = sentAt + 60000 := by
  induction events using List.reverseRecOn with
  | nil => exact absurd hmem List.not_mem_nil
  | append_singleton events event ih =>
      have hlater : ∀ old, old ∈ pending isMapped events → old = entry →
          ∃ sentAt text, Event.sent sentAt text ∈ events ++ [event] ∧
            entry.1 ∈ dialogNames text ∧ entry.2 = sentAt + 60000 := by
        rintro old hold rfl
        obtain ⟨sentAt, text, hsent, hrest⟩ := ih hold
        exact ⟨sentAt, text, List.mem_append_left _ hsent, hrest⟩
      rw [pending, List.foldl_append] at hmem
      cases event with
      | received time cch =>
          exact hlater entry (mem_of_mem_step_received hmem) rfl
      | sent time text =>
          rcases mem_of_mem_addNames hmem with ⟨hname, hexpiry, -⟩ | hold
          · exact ⟨time, text, List.mem_append_right _ List.mem_cons_self,
              hname, hexpiry⟩
          · split at hold
            · exact absurd hold List.not_mem_nil
            · exact hlater entry (List.mem_of_mem_filter hold) rfl

/-- A dialog that `consume_pending_dialog` knows was sent within the last
minute. -/
theorem consumes_sent
    (hconsumes : consumes (pending isMapped events) dialog now = true) :
    ∃ sentAt text, .sent sentAt text ∈ events ∧ dialog ∈ dialogNames text ∧
      now ≤ sentAt + 60000 := by
  obtain ⟨entry, hmem, hentry⟩ := List.any_eq_true.mp hconsumes
  obtain ⟨hname, htime⟩ := Bool.and_eq_true_iff.mp hentry
  obtain ⟨sentAt, text, hsent, hin, hexpiry⟩ := pending_sent hmem
  refine ⟨sentAt, text, hsent, beq_iff_eq.mp hname ▸ hin, ?_⟩
  rw [← hexpiry]
  exact of_decide_eq_true htime

/-- A message that does not reach `call_dialog` breaks no law. -/
theorem lawful_of_not_reaches {r : Route}
    (hroute : route isMapped (pending isMapped events) now cch dialog = r)
    (hr : ¬ r.reaches) : Lawful isMapped events now cch dialog := by
  refine ⟨fun _ _ hreach => absurd (hroute ▸ hreach) hr, fun halways => ?_⟩
  rw [halways] at hroute
  exact absurd (hroute ▸ trivial) hr

/-- After every history, the gate does what it is for on exactly the messages
that are handled rightly. -/
theorem lawful_iff_handled :
    Lawful isMapped events now cch dialog ↔
      Handled isMapped events now cch dialog := by
  unfold Handled
  by_cases hmapped : isMapped dialog = true
  · have hroute : route isMapped (pending isMapped events) now cch dialog =
        .mapped := if_pos hmapped
    exact iff_of_true (lawful_of_not_reaches hroute id) (Or.inl hmapped)
  by_cases hprovider : textFind cch "dialog_name|auto_ptht_action" = true
  · have hroute : route isMapped (pending isMapped events) now cch dialog =
        .provider := by
      rw [route, if_neg hmapped, if_pos hprovider]
    exact iff_of_true (lawful_of_not_reaches hroute id)
      (Or.inr (Or.inl hprovider))
  by_cases hclash : isGuildClash cch = true
  · have hroute : route isMapped (pending isMapped events) now cch dialog =
        .guildClash := by
      rw [route, if_neg hmapped, if_neg hprovider, if_pos hclash]
    exact iff_of_true (lawful_of_not_reaches hroute id)
      (Or.inr (Or.inr (Or.inl hclash)))
  rw [or_iff_right hmapped, or_iff_right hprovider, or_iff_right hclash]
  by_cases hshows : showsAccepted cch = true
  · have hroute : route isMapped (pending isMapped events) now cch dialog =
        .always := by
      rw [route, if_neg hmapped, if_neg hprovider, if_neg hclash, if_pos hshows]
    rw [if_pos hshows]
    constructor
    · intro hlawful
      exact hlawful.listed hroute
    · intro hlisted
      exact ⟨fun _ hnot => absurd hlisted hnot, fun _ => hlisted⟩
  rw [if_neg hshows]
  by_cases hconsumes : consumes (pending isMapped events) dialog now = true
  · have hroute : route isMapped (pending isMapped events) now cch dialog =
        .verified := by
      rw [route, if_neg hmapped, if_neg hprovider, if_neg hclash,
        if_neg hshows, if_pos hconsumes]
    exact iff_of_true (lawful_of_not_reaches hroute id)
      (Or.inr (Or.inl hconsumes))
  · have hroute : route isMapped (pending isMapped events) now cch dialog =
        .unverified := by
      rw [route, if_neg hmapped, if_neg hprovider, if_neg hclash,
        if_neg hshows, if_neg hconsumes]
    rw [or_iff_right hconsumes]
    constructor
    · intro hlawful
      by_cases hlisted : dialog ∈ alwaysAccepted
      · exact Or.inl hlisted
      · have hunmapped : isMapped dialog = false := by simpa using hmapped
        exact Or.inr (hlawful.sent hunmapped hlisted (hroute ▸ trivial))
    · intro hlive
      refine ⟨fun _ hnot _ => hlive.resolve_left hnot, fun halways => ?_⟩
      rw [hroute] at halways
      cases halways

/-- A dialog the server never sent reaches `call_dialog`. -/
theorem unsent_dialog_let_through :
    ¬ ∀ (isMapped : String → Bool) (events : List Event) (now : Int)
        (cch dialog : String),
      TextScanner.tryGet cch "dialog_name" = some dialog →
      Lawful isMapped events now cch dialog := by
  intro hall
  have hlawful := hall (fun _ => false) [] 0
    "action|dialog_return\ndialog_name|secret" "secret" (by decide +kernel)
  obtain ⟨before, sentAt, text, after, hevents, -⟩ :=
    hlawful.sent rfl (by decide) (by decide +kernel)
  exact absurd hevents (by simp)

end Gate

end DialogGate

end NopyServer
