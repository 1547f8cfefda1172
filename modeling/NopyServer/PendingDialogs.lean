/-
The memory of the dialogs that were sent to a peer: `track_pending_dialog` and
`consume_pending_dialog` along any history.  A dialog is accepted for a minute
after a text that names it; the memory forgets everything when it holds more
than 64 names.
-/
import NopyServer.DialogGate

namespace NopyServer

namespace PendingDialogs

open DialogGate Json

/-- A call on the pending dialogs of a peer. -/
inductive Call where
  | track (now : Int) (text : String)
  | consume (now : Int) (name : String)

def Call.time : Call → Int
  | .track now _ => now
  | .consume now _ => now

/-- The pending dialogs after one more call. -/
def apply (pd : List (String × Int)) : Call → List (String × Int)
  | .track now text => trackPendingDialog now text pd
  | .consume now name => consumePendingDialog pd name now

/-- The pending dialogs after a history. -/
def pendingAfter (calls : List Call) : List (String × Int) :=
  calls.foldl apply []

/-- The entries that `track_pending_dialog` keeps when it collects. -/
def liveEntries (now : Int) (pd : List (String × Int)) : List (String × Int) :=
  pd.filter fun entry => now ≤ entry.2

/-- The loop of `track_pending_dialog` on what is left of the text; a line ends
before a line feed or with the text. -/
def scanLines (now : Int) : Nat → List Char → List (String × Int) →
    List (String × Int)
  | 0, _, pd => pd
  | fuel + 1, rest, pd =>
      if rest = [] then pd
      else
        let pd := match lineName (rest.takeWhile (· ≠ '\n')) with
          | some name => addName now pd name
          | none => pd
        match rest.dropWhile (· ≠ '\n') with
        | [] => pd
        | _ :: rest => scanLines now fuel rest pd

/-- A line of a text. -/
def IsLine (text line : List Char) : Prop :=
  ∃ before after, text = before ++ line ++ after ∧ '\n' ∉ line ∧
    (before = [] ∨ ∃ earlier, before = earlier ++ ['\n']) ∧
    (after = [] ∨ ∃ later, after = '\n' :: later)

/-- The line `end_dialog|N|...` or `embed_data|dialog_name|N`. -/
def NamesClosed (line n : List Char) : Prop :=
  (∃ rest, line = "end_dialog|".toList ++ (n ++ '|' :: rest) ∧ '|' ∉ n) ∨
    line = "embed_data|dialog_name|".toList ++ n

/-- The same, or `end_dialog|N` up to the end of the line. -/
def Names (line n : List Char) : Prop :=
  NamesClosed line n ∨ (line = "end_dialog|".toList ++ n ∧ '|' ∉ n)

/-- A text has a line with a name that is, trimmed, `name`. -/
def Announces (names : List Char → List Char → Prop) (text name : String) :
    Prop :=
  ∃ line n, IsLine text.toList line ∧ names line n ∧
    String.ofList (trimName n) = name ∧ 1 ≤ name.length ∧ name.length ≤ 64

section Scanner

theorem mem_splitOn_iff {text line : List Char} :
    line ∈ text.splitOn '\n' ↔ IsLine text line := by
  constructor
  · intro hmem
    induction hlength : text.length using Nat.strong_induction_on generalizing text with
    | _ length ih =>
        by_cases hfeed : '\n' ∈ text
        · obtain ⟨first, rest, rfl, hfirst⟩ := List.eq_append_cons_of_mem hfeed
          rw [List.splitOn_append_cons_self_of_not_mem hfirst] at hmem
          rcases List.mem_cons.mp hmem with rfl | hlater
          · exact ⟨[], '\n' :: rest, by simp, hfirst, Or.inl rfl,
              Or.inr ⟨rest, rfl⟩⟩
          · obtain ⟨before, after, rfl, hline, hstart, hend⟩ :=
              ih rest.length (by simp at hlength; omega) hlater rfl
            refine ⟨first ++ '\n' :: before, after, by simp, hline, Or.inr ?_, hend⟩
            rcases hstart with rfl | ⟨earlier, rfl⟩
            · exact ⟨first, rfl⟩
            · exact ⟨first ++ '\n' :: earlier, by simp⟩
        · rw [List.splitOn_eq_singleton hfeed, List.mem_singleton] at hmem
          subst hmem
          exact ⟨[], [], by simp, hfeed, Or.inl rfl, Or.inl rfl⟩
  · rintro ⟨before, after, rfl, hline, hstart, hend⟩
    have hhere : line ∈ (line ++ after).splitOn '\n' := by
      rcases hend with rfl | ⟨later, rfl⟩
      · rw [List.append_nil, List.splitOn_eq_singleton hline]
        exact List.mem_cons_self
      · rw [List.splitOn_append_cons_self_of_not_mem hline]
        exact List.mem_cons_self
    rcases hstart with rfl | ⟨earlier, rfl⟩
    · exact hhere
    · rw [List.append_assoc, List.append_assoc, List.singleton_append,
        List.splitOn_append_cons_self]
      exact List.mem_append_right _ hhere

/-- The loop adds the names of the lines, the first line first. -/
theorem scanLines_eq (now : Int) (fuel : Nat) (rest : List Char)
    (pd : List (String × Int)) (hfuel : rest.length ≤ fuel) :
    scanLines now fuel rest pd =
      ((rest.splitOn '\n').filterMap lineName).foldl (addName now) pd := by
  induction fuel generalizing rest pd with
  | zero =>
      rw [List.length_eq_zero_iff.mp (Nat.le_zero.mp hfuel)]
      rfl
  | succ fuel ih =>
      unfold scanLines
      by_cases hempty : rest = []
      · subst hempty
        rfl
      rw [if_neg hempty]
      have hsplit := List.takeWhile_append_dropWhile (p := (· ≠ '\n')) (l := rest)
      have hfirst : '\n' ∉ rest.takeWhile (· ≠ '\n') := by
        intro hmem
        simpa using List.mem_takeWhile_imp hmem
      generalize rest.takeWhile (· ≠ '\n') = line at hsplit hfirst
      cases htail : rest.dropWhile (· ≠ '\n') with
      | nil =>
          rw [htail, List.append_nil] at hsplit
          rw [← hsplit, List.splitOn_eq_singleton hfirst]
          cases hname : lineName line <;> simp [hname]
      | cons c tail =>
          have hc : c = '\n' := by
            have hne : rest.dropWhile (· ≠ '\n') ≠ [] := by
              rw [htail]
              exact List.cons_ne_nil c tail
            have hhead := List.head_dropWhile_not (· ≠ '\n') hne
            simp only [htail, List.head_cons] at hhead
            simpa using hhead
          subst hc
          rw [htail] at hsplit
          have hshort : tail.length ≤ fuel := by
            rw [← hsplit] at hfuel
            simp at hfuel
            omega
          rw [← hsplit, List.splitOn_append_cons_self_of_not_mem hfirst]
          cases hname : lineName line <;> simp [hname, ih tail _ hshort]

/-- `track_pending_dialog` with its loop, as it stands in the source. -/
theorem trackPendingDialog_eq_scanLines (now : Int) (text : String)
    (pd : List (String × Int)) :
    trackPendingDialog now text pd =
      scanLines now text.length text.toList
        (if 64 < (liveEntries now pd).length then [] else liveEntries now pd) := by
  rw [scanLines_eq _ _ _ _ (Nat.le_of_eq String.length_toList)]
  rfl

theorem trimName_concat (n : List Char) : trimName (n ++ ['\r']) = trimName n := by
  rw [trimName, List.rdropWhile_concat_pos _ _ _ rfl]
  rfl

/-- The name of a line, before it is trimmed. -/
def rawName (line : List Char) : Option (List Char) :=
  if "end_dialog|".toList.isPrefixOf line then
    some ((line.drop 11).takeWhile (· ≠ '|'))
  else if "embed_data|dialog_name|".toList.isPrefixOf line then
    some (line.drop 23)
  else none

theorem isPrefixOf_concat {start : List Char} (line : List Char)
    (hstart : start.getLast? ≠ some '\r') :
    start.isPrefixOf (line ++ ['\r']) = start.isPrefixOf line := by
  rw [Bool.eq_iff_iff, List.isPrefixOf_iff_prefix, List.isPrefixOf_iff_prefix,
    List.prefix_concat_iff]
  refine or_iff_right fun hsame => hstart ?_
  rw [hsame, List.getLast?_concat]

/-- A carriage return at the end of a line makes no difference. -/
theorem rawName_concat (line : List Char) :
    (rawName (line ++ ['\r'])).map trimName = (rawName line).map trimName := by
  unfold rawName
  rw [isPrefixOf_concat line (by decide), isPrefixOf_concat line (by decide)]
  split_ifs with hend hembed
  · obtain ⟨tail, rfl⟩ := List.isPrefixOf_iff_prefix.mp hend
    rw [List.append_assoc, List.drop_left' (by decide), List.drop_left' (by decide),
      List.takeWhile_append]
    split_ifs with hall
    · rw [List.IsPrefix.eq_of_length (List.takeWhile_prefix _) hall]
      exact congrArg some (trimName_concat tail)
    · rfl
  · obtain ⟨tail, rfl⟩ := List.isPrefixOf_iff_prefix.mp hembed
    rw [List.append_assoc, List.drop_left' (by decide), List.drop_left' (by decide)]
    exact congrArg some (trimName_concat tail)
  · rfl

theorem lineName_eq (line : List Char) :
    lineName line = ((rawName line).map trimName).map String.ofList := by
  have hraw : ∀ line : List Char, ((rawName line).map trimName).map String.ofList =
      if "end_dialog|".toList.isPrefixOf line then
        some (String.ofList (trimName ((line.drop 11).takeWhile (· ≠ '|'))))
      else if "embed_data|dialog_name|".toList.isPrefixOf line then
        some (String.ofList (trimName (line.drop 23)))
      else none := by
    intro line
    unfold rawName
    split_ifs <;> rfl
  unfold lineName
  by_cases hreturn : line.getLast? = some '\r'
  · obtain ⟨start, rfl⟩ := List.getLast?_eq_some_iff.mp hreturn
    rw [if_pos hreturn, List.dropLast_concat, rawName_concat, hraw]
  · rw [if_neg hreturn, hraw]

theorem rawName_eq_some_iff {line n : List Char} :
    rawName line = some n ↔ Names line n := by
  constructor
  · intro hname
    unfold rawName at hname
    split_ifs at hname with hend hembed
    · obtain ⟨tail, rfl⟩ := List.isPrefixOf_iff_prefix.mp hend
      rw [List.drop_left' (by decide), Option.some_inj] at hname
      have hsplit := List.takeWhile_append_dropWhile (p := (· ≠ '|')) (l := tail)
      have hbar : '|' ∉ n := by
        intro hmem
        rw [← hname] at hmem
        simpa using List.mem_takeWhile_imp hmem
      rw [hname] at hsplit
      cases htail : tail.dropWhile (· ≠ '|') with
      | nil =>
          rw [htail, List.append_nil] at hsplit
          exact Or.inr ⟨by rw [hsplit], hbar⟩
      | cons c rest =>
          have hne : tail.dropWhile (· ≠ '|') ≠ [] := by
            rw [htail]
            exact List.cons_ne_nil c rest
          have hhead := List.head_dropWhile_not (· ≠ '|') hne
          simp only [htail, List.head_cons] at hhead
          obtain rfl : c = '|' := by simpa using hhead
          rw [htail] at hsplit
          exact Or.inl (Or.inl ⟨rest, by rw [hsplit], hbar⟩)
    · obtain ⟨tail, rfl⟩ := List.isPrefixOf_iff_prefix.mp hembed
      rw [List.drop_left' (by decide), Option.some_inj] at hname
      exact Or.inl (Or.inr (by rw [hname]))
  · have hopen : ∀ tail, rawName ("end_dialog|".toList ++ tail) =
        some (tail.takeWhile (· ≠ '|')) := by
      intro tail
      rw [rawName, if_pos (List.isPrefixOf_iff_prefix.mpr (List.prefix_append _ _)),
        List.drop_left' (by decide)]
    have hall : ∀ {n : List Char}, '|' ∉ n → ∀ c ∈ n, decide (c ≠ '|') = true := by
      intro n hbar c hc
      exact decide_eq_true fun hsame => hbar (hsame ▸ hc)
    rintro ((⟨rest, rfl, hbar⟩ | rfl) | ⟨rfl, hbar⟩)
    · rw [hopen, List.takeWhile_append_of_pos (hall hbar)]
      simp
    · rfl
    · rw [hopen, List.takeWhile_eq_self_iff.mpr (hall hbar)]

/-- The names of a text are those that its lines give it. -/
theorem mem_dialogNames_iff {text name : String} :
    name ∈ dialogNames text ↔ ∃ line n, IsLine text.toList line ∧
      Names line n ∧ String.ofList (trimName n) = name := by
  rw [dialogNames, List.mem_filterMap]
  constructor
  · rintro ⟨line, hline, hname⟩
    rw [lineName_eq, Option.map_map, Option.map_eq_some_iff] at hname
    obtain ⟨n, hn, hsame⟩ := hname
    exact ⟨line, n, mem_splitOn_iff.mp hline, rawName_eq_some_iff.mp hn, hsame⟩
  · rintro ⟨line, n, hline, hn, hsame⟩
    refine ⟨line, mem_splitOn_iff.mpr hline, ?_⟩
    rw [lineName_eq, rawName_eq_some_iff.mpr hn, ← hsame]
    rfl

end Scanner

section History

variable {calls : List Call} {now : Int} {name : String}
  {pd : List (String × Int)}

theorem consumes_iff :
    consumes pd name now = true ↔ ∃ expiry, (name, expiry) ∈ pd ∧ now ≤ expiry := by
  constructor
  · intro hconsumes
    obtain ⟨⟨key, expiry⟩, hmem, hentry⟩ := List.any_eq_true.mp hconsumes
    obtain ⟨hkey, htime⟩ := Bool.and_eq_true_iff.mp hentry
    obtain rfl : key = name := beq_iff_eq.mp hkey
    exact ⟨expiry, hmem, of_decide_eq_true htime⟩
  · rintro ⟨expiry, hmem, htime⟩
    exact List.any_eq_true.mpr ⟨(name, expiry), hmem, by simpa using htime⟩

/-- The names of the map are distinct, so that its size is the length of the
list. -/
theorem nodup_pendingAfter : ((pendingAfter calls).map Prod.fst).Nodup := by
  induction calls using List.reverseRecOn with
  | nil => exact List.nodup_nil
  | append_singleton calls call ih =>
      rw [pendingAfter, List.foldl_append]
      have hfilter : ∀ keep : String × Int → Bool,
          (((pendingAfter calls).filter keep).map Prod.fst).Nodup :=
        fun keep => ih.sublist (List.filter_sublist.map Prod.fst)
      cases call with
      | consume now name => exact hfilter _
      | track now text =>
          have hadd : ∀ (names : List String) (pd : List (String × Int)),
              (pd.map Prod.fst).Nodup →
              ((names.foldl (addName now) pd).map Prod.fst).Nodup := by
            intro names
            induction names with
            | nil => exact fun _ hpd => hpd
            | cons name rest ih =>
                intro pd hpd
                apply ih
                unfold addName
                split
                · exact hpd
                · exact nodup_setKey hpd name _
          apply hadd
          split
          · exact List.nodup_nil
          · exact hfilter _

/-- What is pending was announced by a text, a minute before it expires. -/
theorem pendingAfter_announced {entry : String × Int}
    (hmem : entry ∈ pendingAfter calls) :
    ∃ sentAt text, .track sentAt text ∈ calls ∧ entry.2 = sentAt + 60000 ∧
      Announces Names text entry.1 := by
  induction calls using List.reverseRecOn with
  | nil => exact absurd hmem List.not_mem_nil
  | append_singleton calls call ih =>
      have hlater : entry ∈ pendingAfter calls → ∃ sentAt text,
          Call.track sentAt text ∈ calls ++ [call] ∧ entry.2 = sentAt + 60000 ∧
            Announces Names text entry.1 := by
        intro hold
        obtain ⟨sentAt, text, hsent, hrest⟩ := ih hold
        exact ⟨sentAt, text, List.mem_append_left _ hsent, hrest⟩
      rw [pendingAfter, List.foldl_append] at hmem
      cases call with
      | consume time name => exact hlater (List.mem_of_mem_filter hmem)
      | track time text =>
          rcases mem_of_mem_addNames hmem with ⟨hname, hexpiry, hne, hlong⟩ | hold
          · obtain ⟨line, n, hline, hn, hsame⟩ := mem_dialogNames_iff.mp hname
            have hpos : 1 ≤ entry.1.length :=
              Nat.one_le_iff_ne_zero.mpr fun hzero =>
                hne (String.length_eq_zero_iff.mp hzero)
            exact ⟨time, text, by simp, hexpiry, line, n, hline, hn, hsame, hpos,
              hlong⟩
          · split at hold
            · exact absurd hold List.not_mem_nil
            · exact hlater (List.mem_of_mem_filter hold)

/-- A name is pending and expires no earlier than a time. -/
def PendingUntil (pd : List (String × Int)) (name : String) (time : Int) : Prop :=
  ∃ expiry, (name, expiry) ∈ pd ∧ time ≤ expiry

theorem mem_setKey_self (key : String) (value : Int) :
    (key, value) ∈ setKey key value pd := by
  induction pd with
  | nil => exact List.mem_singleton_self _
  | cons entry rest ih =>
      unfold setKey
      split_ifs
      · exact List.mem_cons_self
      · exact List.mem_cons_of_mem _ ih

theorem mem_setKey_of_ne {key : String} {value : Int} {entry : String × Int}
    (hmem : entry ∈ pd) (hne : entry.1 ≠ key) : entry ∈ setKey key value pd := by
  induction pd with
  | nil => cases hmem
  | cons head rest ih =>
      unfold setKey
      rcases List.mem_cons.mp hmem with rfl | hrest
      · rw [if_neg hne]
        exact List.mem_cons_self
      · split_ifs
        · exact List.mem_cons_of_mem _ hrest
        · exact List.mem_cons_of_mem _ (ih hrest)

/-- Adding names puts no expiry off. -/
theorem PendingUntil.addNames {time : Int} (hpending : PendingUntil pd name time)
    (htime : time ≤ now + 60000) (names : List String) :
    PendingUntil (names.foldl (addName now) pd) name time := by
  induction names generalizing pd with
  | nil => exact hpending
  | cons first rest ih =>
      apply ih
      obtain ⟨expiry, hmem, hle⟩ := hpending
      unfold addName
      split
      · exact ⟨expiry, hmem, hle⟩
      · by_cases hsame : name = first
        · subst hsame
          exact ⟨now + 60000, mem_setKey_self name _, htime⟩
        · exact ⟨expiry, mem_setKey_of_ne hmem hsame, hle⟩

theorem pendingUntil_of_mem {names : List String} (hmem : name ∈ names)
    (hne : name ≠ "") (hlong : name.length ≤ 64) :
    PendingUntil (names.foldl (addName now) pd) name (now + 60000) := by
  induction names generalizing pd with
  | nil => cases hmem
  | cons first rest ih =>
      rcases List.mem_cons.mp hmem with rfl | hrest
      · have hadded : addName now pd name = setKey name (now + 60000) pd :=
          if_neg (not_or.mpr ⟨hne, Nat.not_lt.mpr hlong⟩)
        rw [List.foldl_cons, hadded]
        apply PendingUntil.addNames _ (Int.le_refl _)
        exact ⟨now + 60000, mem_setKey_self name _, Int.le_refl _⟩
      · exact ih hrest

/-- A text that announces a name makes it pending for a minute. -/
theorem pendingUntil_track {sentAt : Int} {text : String}
    (hname : Announces Names text name) :
    PendingUntil (trackPendingDialog sentAt text pd) name (sentAt + 60000) := by
  obtain ⟨line, n, hline, hn, hsame, hpos, hlong⟩ := hname
  apply pendingUntil_of_mem _ _ hlong
  · exact mem_dialogNames_iff.mpr ⟨line, n, hline, hn, hsame⟩
  · rintro rfl
    exact absurd hpos (by decide)

/-- One more call takes no live name away, unless the memory overflows. -/
theorem PendingUntil.apply {time : Int} (hpending : PendingUntil pd name time)
    {call : Call} (hcall : call.time ≤ time) (hlater : time ≤ call.time + 60000)
    (hroom : ∀ now text, call = .track now text →
      (liveEntries now pd).length ≤ 64) :
    PendingUntil (PendingDialogs.apply pd call) name time := by
  obtain ⟨expiry, hmem, hle⟩ := hpending
  cases call with
  | consume now other =>
      have hcall : now ≤ time := hcall
      refine ⟨expiry, List.mem_filter.mpr ⟨hmem, ?_⟩, hle⟩
      have hlive : ¬ expiry < now := by omega
      simp [hlive]
  | track now text =>
      have hcall : now ≤ time := hcall
      have hlive : (name, expiry) ∈ liveEntries now pd :=
        List.mem_filter.mpr ⟨hmem, decide_eq_true (Int.le_trans hcall hle)⟩
      have hsmall : ¬ 64 < (pd.filter fun entry => now ≤ entry.2).length :=
        Nat.not_lt.mpr (hroom now text rfl)
      rw [PendingDialogs.apply, trackPendingDialog, if_neg hsmall]
      exact PendingUntil.addNames ⟨expiry, hlive, hle⟩ hlater _

end History

/-- The calls of a history come one after another, the last before `now`. -/
def InOrder (calls : List Call) (now : Int) : Prop :=
  (calls.map Call.time ++ [now]).Pairwise (· ≤ ·)

/-- A dialog is accepted only after a text that announces it, for a minute, and
always within that minute while no call finds more than 64 live names. -/
theorem consumes_along_history {calls : List Call} {now : Int}
    (horder : InOrder calls now) (name : String) :
    (consumes (pendingAfter calls) name now = true →
      ∃ sentAt text, .track sentAt text ∈ calls ∧ now - 60000 ≤ sentAt ∧
        sentAt ≤ now ∧ Announces Names text name) ∧
    ∀ before sentAt text after,
      calls = before ++ .track sentAt text :: after → now - 60000 ≤ sentAt →
      Announces Names text name →
      (∀ mid later text' rest, after = mid ++ .track later text' :: rest →
        (liveEntries later
          (pendingAfter (before ++ .track sentAt text :: mid))).length ≤ 64) →
      consumes (pendingAfter calls) name now = true := by
  obtain ⟨hsorted, -, hlast⟩ := List.pairwise_append.mp horder
  have hbefore : ∀ call ∈ calls, call.time ≤ now := fun call hcall =>
    hlast _ (List.mem_map_of_mem hcall) now (List.mem_singleton_self now)
  constructor
  · intro hconsumes
    obtain ⟨expiry, hmem, hlive⟩ := consumes_iff.mp hconsumes
    obtain ⟨sentAt, text, hsent, hexpiry, hname⟩ := pendingAfter_announced hmem
    have hexpiry : expiry = sentAt + 60000 := hexpiry
    exact ⟨sentAt, text, hsent, by omega, hbefore _ hsent, hname⟩
  · intro before sentAt text after hcalls hwindow hname hroom
    have hkept : ∀ mid rest, after = mid ++ rest →
        PendingUntil (pendingAfter (before ++ .track sentAt text :: mid)) name
          (sentAt + 60000) := by
      intro mid
      induction mid using List.reverseRecOn with
      | nil =>
          intro rest _
          rw [pendingAfter, List.foldl_append]
          exact pendingUntil_track hname
      | append_singleton mid call ih =>
          intro rest hafter
          rw [List.append_assoc] at hafter
          have hcall : call ∈ after := by simp [hafter]
          have hmem : call ∈ calls := by
            rw [hcalls]
            exact List.mem_append_right _ (List.mem_cons_of_mem _ hcall)
          have hle : sentAt ≤ call.time := by
            rw [hcalls, List.map_append, List.map_cons] at hsorted
            have hrest := (List.pairwise_append.mp hsorted).2.1
            exact (List.pairwise_cons.mp hrest).1 _ (List.mem_map_of_mem hcall)
          have hnow := hbefore call hmem
          rw [← List.cons_append, ← List.append_assoc, pendingAfter,
            List.foldl_append]
          apply (ih _ hafter).apply (by omega) (by omega)
          rintro later text' rfl
          exact hroom mid later text' rest hafter
    obtain ⟨expiry, hmem, hle⟩ := hkept after [] (by simp)
    rw [← hcalls] at hmem
    exact consumes_iff.mpr ⟨expiry, hmem, by omega⟩

theorem consumes_after_one_text :
    InOrder [.track 5 "add_spacer|small|\nend_dialog|trash_item|Cancel|OK|"] 60005 ∧
      consumes (pendingAfter
        [.track 5 "add_spacer|small|\nend_dialog|trash_item|Cancel|OK|"])
          "trash_item" 60005 = true := by
  have horder : InOrder
      [.track 5 "add_spacer|small|\nend_dialog|trash_item|Cancel|OK|"] 60005 := by
    simp [InOrder, Call.time]
  refine ⟨horder, (consumes_along_history horder "trash_item").2 [] 5 _ [] rfl
    (by decide) ?_ (by simp)⟩
  refine ⟨"end_dialog|trash_item|Cancel|OK|".toList, "trash_item".toList,
    ⟨"add_spacer|small|\n".toList, [], by decide, by decide,
      Or.inr ⟨"add_spacer|small|".toList, by decide⟩, Or.inl rfl⟩,
    Or.inl (Or.inl ⟨"Cancel|OK|".toList, by decide, by decide⟩),
    by decide, by decide, by decide⟩

/-- A line that names a dialog and ends there is enough. -/
theorem name_without_bar_is_accepted :
    ¬ ∀ (calls : List Call) (now : Int) (name : String), InOrder calls now →
      consumes (pendingAfter calls) name now = true →
      ∃ sentAt text, .track sentAt text ∈ calls ∧ now - 60000 ≤ sentAt ∧
        sentAt ≤ now ∧ Announces NamesClosed text name := by
  intro hall
  obtain ⟨sentAt, text, hsent, -, -, line, n, hline, hn, -⟩ :=
    hall [.track 0 "end_dialog|secret"] 0 "secret" (by simp [InOrder, Call.time])
      (by decide +kernel)
  obtain ⟨rfl, rfl⟩ : sentAt = 0 ∧ text = "end_dialog|secret" := by
    simpa using hsent
  rw [← mem_splitOn_iff, List.splitOn_eq_singleton (by decide),
    List.mem_singleton] at hline
  rcases hn with ⟨rest, hrest, -⟩ | hembed
  · rw [hline] at hrest
    have htail : "secret".toList = n ++ '|' :: rest :=
      (List.append_right_inj "end_dialog|".toList).mp hrest
    have hbar : '|' ∈ "secret".toList := by simp [htail]
    exact absurd hbar (by decide)
  · rw [hline] at hembed
    have hlength := congrArg List.length hembed
    rw [List.length_append] at hlength
    have hshort : "end_dialog|secret".toList.length <
        "embed_data|dialog_name|".toList.length := by decide
    omega

end PendingDialogs

end NopyServer
