/-
Runs of `redeem_code` requests.  A request is sound when it hands out the whole
code and at least one item, or nothing at all: it depends on the backpack the
item loop finds.  Along every run of sound requests each player is served a code
at most once, no more players than `MaximumEnter` are, and the records of the
code tell who they were.
-/
import NopyServer.RedeemCode

namespace NopyServer

open Inventory BuxGems

namespace RedeemCode

section Scalars

variable {env : Env} {peer : Nat} {now : Int} {code : RedeemCode}
  {guildEventType : String}

/-- The rewards that are not items and that a request credits. -/
def credits (guildEventType : String) (code : RedeemCode) : List Reward :=
  (if code.growPass = true then [.growPass] else []) ++
    (if code.roadToGlory = true then [.roadToGlory] else []) ++
    (if code.gemss ≠ 0 then [.gems code.gemss] else []) ++
    (if code.levell ≠ 0 then [.level code.levell] else []) ++
    (if code.coin ≠ 0 then [.coin code.coin] else []) ++
    (if code.seasonalsToken ≠ 0 ∧ HasTokens guildEventType then
      [.seasonalsToken code.seasonalsToken] else []) ++
    (if code.playerRole ≠ 0 ∧ KnownRole code.playerRole then
      [.role code.playerRole] else [])

/-- Tokens of the code belong to an event, and its role is one. -/
def Deliverable (guildEventType : String) (code : RedeemCode) : Prop :=
  (code.seasonalsToken = 0 ∨ HasTokens guildEventType) ∧
    (code.playerRole = 0 ∨ KnownRole code.playerRole)

instance (guildEventType : String) (code : RedeemCode) :
    Decidable (Deliverable guildEventType code) :=
  inferInstanceAs (Decidable (_ ∧ _))

theorem length_credits_le :
    (code.credits guildEventType).length ≤ code.scalars.length := by
  unfold credits scalars
  simp only [List.length_append]
  gcongr
  · split_ifs with htokens htoken
    · exact le_rfl
    · exact absurd htokens.1 htoken
    · exact Nat.zero_le _
    · exact le_rfl
  · split_ifs with hroles hrole
    · exact le_rfl
    · exact absurd hroles.1 hrole
    · exact Nat.zero_le _
    · exact le_rfl

theorem credits_eq_scalars_iff :
    code.credits guildEventType = code.scalars ↔
      Deliverable guildEventType code := by
  unfold credits scalars Deliverable
  by_cases htoken : code.seasonalsToken = 0 <;>
    by_cases hevent : HasTokens guildEventType <;>
    by_cases hrole : code.playerRole = 0 <;>
    by_cases hknown : KnownRole code.playerRole <;>
    simp [htoken, hevent, hrole, hknown]

/-- What a reward adds to an account. -/
def receive (guildEventType : String) (account : Account) : Reward → Account
  | .growPass => { account with gp := 1 }
  | .roadToGlory => { account with glo := 1 }
  | .level amount => { account with level := account.level + amount }
  | .coin amount => { account with gtwl := account.gtwl + amount }
  | .seasonalsToken amount => addTokens guildEventType amount account
  | .role id => { account with role := setRole id account.role }
  | .gems _ => account
  | .item _ _ => account

/-- Between two points of a request the rewards have been credited: they are
on the list, and the account of the player shows them. -/
structure Credited (guildEventType : String) (peer : Nat)
    (rewards : List Reward) (g next : Grant) : Prop where
  granted : next.granted = g.granted ++ rewards
  success : next.success = g.success
  standing : (standings next.server)[peer]? =
    (standings g.server)[peer]?.map fun before =>
      (before.1, rewards.foldl (receive guildEventType) before.2)

theorem Credited.none (g : Grant) : Credited guildEventType peer [] g g where
  granted := (List.append_nil _).symm
  success := rfl
  standing := by simp

theorem Credited.trans {g next last : Grant} {rewards more : List Reward}
    (h : Credited guildEventType peer rewards g next)
    (hmore : Credited guildEventType peer more next last) :
    Credited guildEventType peer (rewards ++ more) g last where
  granted := by rw [hmore.granted, h.granted, List.append_assoc]
  success := hmore.success.trans h.success
  standing := by
    rw [hmore.standing, h.standing, Option.map_map]
    simp only [Function.comp_def, List.foldl_append]

theorem credited_if {p : Prop} [Decidable p] {reward : Reward}
    {f : Server → Server} (g : Grant)
    (hf : p → (standings (f g.server))[peer]? =
      (standings g.server)[peer]?.map fun before =>
        (before.1, receive guildEventType before.2 reward)) :
    Credited guildEventType peer (if p then [reward] else []) g
      (if p then g.credit reward f else g) := by
  split_ifs with hp
  · exact ⟨rfl, rfl, hf hp⟩
  · exact Credited.none g

theorem standing_mapAccount (f : Account → Account) (server : Server) :
    (standings (mapAccount peer f server))[peer]? =
      (standings server)[peer]?.map fun before => (before.1, f before.2) := by
  unfold standings mapAccount Server.mapPlayer
  simp only [List.getElem?_map, List.getElem?_modify, if_true]
  cases server.players[peer]? <;> rfl

theorem giveRole_credited (g : Grant) :
    Credited guildEventType peer
      (if code.playerRole ≠ 0 ∧ KnownRole code.playerRole then
        [.role code.playerRole]
      else []) g (giveRole peer code g) := by
  unfold giveRole
  by_cases hrole : code.playerRole = 0
  · simp only [hrole, ne_eq, not_true_eq_false, false_and, if_false]
    exact Credited.none g
  · simp only [hrole, ne_eq, not_false_eq_true, true_and, if_true]
    have hgiven := @credited_if peer guildEventType (KnownRole code.playerRole) _
      (.role code.playerRole) (mapAccount peer fun account =>
        { account with role := setRole code.playerRole account.role }) g
      fun _ => standing_mapAccount _ _
    -- The colour of the name is not part of the standing.
    refine ⟨hgiven.granted, hgiven.success, ?_⟩
    rw [← hgiven.standing, standings_mapPlayer]
    intros
    rfl

/-- What the rewards other than items do. -/
theorem giveScalars_credited (g : Grant) :
    Credited guildEventType peer (code.credits guildEventType) g
      (giveScalars env peer now code guildEventType g) := by
  have hgems (server : Server) :
      (standings (onBuxGems env peer now code.gemss server))[peer]? =
        (standings server)[peer]?.map fun before =>
          (before.1, receive guildEventType before.2 (.gems code.gemss)) := by
    rw [standings_onBuxGems]
    simp [receive]
  exact ((((((credited_if _ fun _ => standing_mapAccount _ _).trans
    (credited_if _ fun _ => standing_mapAccount _ _)).trans
    (credited_if _ fun _ => hgems _)).trans
    (credited_if _ fun _ => standing_mapAccount _ _)).trans
    (credited_if _ fun _ => standing_mapAccount _ _)).trans
    (credited_if _ fun _ => standing_mapAccount _ _)).trans
    (giveRole_credited _)

end Scalars

section Items

variable {env : Env} {peer : Nat} {now : Int}

/-- The items that find room, each in the backpack as it is when its turn
comes. -/
def taken (env : Env) (peer : Nat) (now : Int) :
    List (Int × Int) → Server → List (Int × Int)
  | [], _ => []
  | item :: rest, server =>
      let later := taken env peer now rest (modifyItem env peer now item server).2
      if server.players[peer]?.any
          (fun pl => decide (Takes env pl item.1 item.2)) = true then
        item :: later
      else later

theorem length_taken_le (items : List (Int × Int)) (server : Server) :
    (taken env peer now items server).length ≤ items.length := by
  induction items generalizing server with
  | nil => exact le_rfl
  | cons item rest ih =>
      have hrest := ih (modifyItem env peer now item server).2
      unfold taken
      dsimp only
      split_ifs
      · exact Nat.succ_le_succ hrest
      · exact hrest.trans (Nat.le_succ _)

theorem modifyItem_ret_eq_zero_iff (item : Int × Int) (server : Server) :
    (modifyItem env peer now item server).1 = 0 ↔
      server.players[peer]?.any
        (fun pl => decide (Takes env pl item.1 item.2)) = true := by
  unfold modifyItem
  cases server.players[peer]? with
  | none => simp
  | some pl => simp [modify_ret_eq_zero_iff, Server.session]

theorem standings_modifyItem (item : Int × Int) (server : Server) :
    standings (modifyItem env peer now item server).2 = standings server :=
  standings_serve fun s => modify_standing env s item.1 item.2 false

/-- What the item loop does. -/
theorem giveItems_spec (items : List (Int × Int)) (g : Grant) :
    let last := items.foldl (giveItem env peer now) g
    last.granted = g.granted ++
        (taken env peer now items g.server).map itemReward ∧
      (last.success = true ↔
        g.success = true ∨ taken env peer now items g.server ≠ []) ∧
      standings last.server = standings g.server := by
  induction items generalizing g with
  | nil => simp [taken]
  | cons item rest ih =>
      have hret := @modifyItem_ret_eq_zero_iff env peer now item g.server
      have hsame := @standings_modifyItem env peer now item g.server
      obtain ⟨hgranted, hsuccess, hstandings⟩ := ih (giveItem env peer now g item)
      simp only [List.foldl_cons]
      refine ⟨hgranted.trans ?_, hsuccess.trans ?_, hstandings.trans ?_⟩
      all_goals
        simp only [giveItem, taken, ← hret]
        split_ifs
      · simp
      · simp
      · simp
      · simp
      · exact hsame
      · exact hsame

end Items

section Requests

variable {env : Env} {req : Request} {server : Server}
  {codes : List RedeemCode} {pl : Player} {p : Nat} {code : RedeemCode}

/-- The player, the code and its place, where a request passes all tests. -/
def admitted (req : Request) (server : Server) (codes : List RedeemCode) :
    Option (Player × Nat × RedeemCode) :=
  match server.players[req.peer]?, (codeText req.cch).bind (findCode codes) with
  | some pl, some p =>
      match codes[p]? with
      | some code =>
          if pl.lastRedeem + 3000 < req.nowMs ∧ MayClaim pl req.now code then
            some (pl, p, code)
          else none
      | none => none
  | _, _ => none

structure Admitted (req : Request) (server : Server) (codes : List RedeemCode)
    (pl : Player) (p : Nat) (code : RedeemCode) : Prop where
  player : server.players[req.peer]? = some pl
  place : (codeText req.cch).bind (findCode codes) = some p
  found : codes[p]? = some code
  mayClaim : MayClaim pl req.now code

/-- A request that is not admitted hands out nothing; one that is claims the
code. -/
theorem redeemCode_admitted (env : Env) (req : Request) (server : Server)
    (codes : List RedeemCode) :
    (admitted req server codes = none ∧
      (redeemCode env req server codes).granted = [] ∧
      (redeemCode env req server codes).codes = codes) ∨
    ∃ pl p code, admitted req server codes = some (pl, p, code) ∧
      Admitted req server codes pl p code ∧
      redeemCode env req server codes =
        claim env req (startCooldown req server) codes p code := by
  unfold admitted redeemCode
  cases hpl : server.players[req.peer]? with
  | none => exact .inl ⟨rfl, rfl, rfl⟩
  | some pl =>
      cases hp : (codeText req.cch).bind (findCode codes) with
      | none => exact .inl ⟨rfl, rfl, rfl⟩
      | some p =>
          dsimp only
          cases hcode : codes[p]? with
          | none => exact .inl ⟨rfl, by split_ifs <;> rfl, by split_ifs <;> rfl⟩
          | some code =>
              dsimp only
              by_cases hcool : pl.lastRedeem + 3000 < req.nowMs
              · by_cases hmay : MayClaim pl req.now code
                · refine .inr ⟨pl, p, code, if_pos ⟨hcool, hmay⟩,
                    ⟨hpl, hp, hcode, hmay⟩, ?_⟩
                  rw [if_pos hcool, if_pos hmay]
                · refine .inl ⟨if_neg fun h => hmay h.2, ?_⟩
                  rw [if_pos hcool, if_neg hmay]
                  exact ⟨rfl, rfl⟩
              · refine .inl ⟨if_neg fun h => hcool h.1, ?_⟩
                rw [if_neg hcool]
                exact ⟨rfl, rfl⟩

/-- The server when the item loop starts. -/
def paid (env : Env) (req : Request) (server : Server) (code : RedeemCode) :
    Server :=
  (giveScalars env req.peer req.now code req.guildEventType
    { server := startCooldown req server }).server

/-- The items of the code that a request finds room for. -/
def fitting (env : Env) (req : Request) (server : Server) (code : RedeemCode) :
    List (Int × Int) :=
  taken env req.peer req.now code.items (paid env req server code)

theorem standings_startCooldown :
    standings (startCooldown req server) = standings server :=
  standings_mapPlayer fun _ _ => rfl

/-- What an admitted request does to the code and to the account. -/
theorem claim_spec (hpl : server.players[req.peer]? = some pl) :
    let out := claim env req (startCooldown req server) codes p code
    let fits := fitting env req server code
    out.granted = code.credits req.guildEventType ++ fits.map itemReward ∧
      out.codes =
        (if fits = [] then codes else codes.modify p (record pl.tankIDName)) ∧
      (standings out.server)[req.peer]? = some (pl.tankIDName,
        (code.credits req.guildEventType).foldl (receive req.guildEventType)
          pl.account) := by
  have hscalars := @giveScalars_credited env req.peer req.now code
    req.guildEventType { server := startCooldown req server }
  have hitems := @giveItems_spec env req.peer req.now code.items
    (giveScalars env req.peer req.now code req.guildEventType
      { server := startCooldown req server })
  have hstart : (standings (startCooldown req server))[req.peer]? =
      some (standing pl) := by
    rw [standings_startCooldown, standings, List.getElem?_map, hpl]
    rfl
  obtain ⟨hgranted, hsuccess, hstandings⟩ := hitems
  rw [hscalars.granted, List.nil_append] at hgranted
  rw [hscalars.success] at hsuccess
  have hstanding := hscalars.standing
  rw [← hstandings, hstart] at hstanding
  unfold claim
  dsimp only
  generalize List.foldl _ _ code.items = g at hgranted hsuccess hstanding
  -- The claim is recorded under the name the player has at the end.
  have hname : ∃ after, g.server.players[req.peer]? = some after ∧
      after.tankIDName = pl.tankIDName := by
    unfold standings at hstanding
    rw [List.getElem?_map] at hstanding
    obtain ⟨after, hafter, heq⟩ := Option.map_eq_some_iff.mp hstanding
    exact ⟨after, hafter, congrArg Prod.fst heq⟩
  obtain ⟨after, hafter, hafterName⟩ := hname
  rw [hafter]
  by_cases hfits : fitting env req server code = []
  · have hno : g.success = false := by
      rw [Bool.eq_false_iff]
      intro h
      rcases hsuccess.mp h with hfalse | hne
      · cases hfalse
      · exact hne hfits
    rw [hno, if_pos hfits]
    exact ⟨hgranted, rfl, hstanding⟩
  · have hyes : g.success = true := hsuccess.mpr (.inr hfits)
    rw [hyes, if_neg hfits, ← hafterName]
    exact ⟨hgranted, rfl, by rw [hstanding, hafterName]; rfl⟩

/-- All rewards of the code can be credited and there is an item among them, or
none of them can. -/
def SoundFor (env : Env) (req : Request) (server : Server)
    (code : RedeemCode) : Prop :=
  code.items ≠ [] ∧ Deliverable req.guildEventType code ∧
      fitting env req server code = code.items ∨
    code.credits req.guildEventType = [] ∧ fitting env req server code = []

instance (env : Env) (req : Request) (server : Server) (code : RedeemCode) :
    Decidable (SoundFor env req server code) :=
  inferInstanceAs (Decidable (_ ∨ _))

/-- The condition under which a request keeps to what a code promises. -/
def Sound (env : Env) (req : Request) (server : Server)
    (codes : List RedeemCode) : Prop :=
  ∀ entry ∈ admitted req server codes, SoundFor env req server entry.2.2

instance (env : Env) (req : Request) (server : Server)
    (codes : List RedeemCode) : Decidable (Sound env req server codes) :=
  inferInstanceAs (Decidable (∀ entry ∈ admitted req server codes, _))

/-- A request hands out nothing, or the whole code and is recorded. -/
def AllOrNothing (env : Env) (req : Request) (server : Server)
    (codes : List RedeemCode) : Prop :=
  let out := redeemCode env req server codes
  out.granted = [] ∧ out.codes = codes ∨
    ∃ pl p code, Admitted req server codes pl p code ∧
      out.granted = code.rewards ∧
      out.codes = codes.modify p (record pl.tankIDName)

theorem modify_record_ne (hcode : codes[p]? = some code) (name : String) :
    codes.modify p (record name) ≠ codes := by
  intro h
  have hplace := congrArg (fun list => list[p]?) h
  simp only [List.getElem?_modify, if_true, hcode] at hplace
  have henter := congrArg poepleEnter (Option.some.inj hplace)
  simp only [record] at henter
  omega

theorem itemReward_injective : Function.Injective itemReward := by
  intro left right h
  unfold itemReward at h
  injection h with hid hcount
  exact Prod.ext hid hcount

/-- A sound request that hands out anything hands out the whole code. -/
theorem redeemCode_of_sound (hsound : Sound env req server codes) :
    ((redeemCode env req server codes).granted = [] ∧
      (redeemCode env req server codes).codes = codes) ∨
    ∃ pl p code, Admitted req server codes pl p code ∧
      (redeemCode env req server codes).granted = code.rewards ∧
      code.rewards ≠ [] ∧
      (redeemCode env req server codes).codes =
        codes.modify p (record pl.tankIDName) := by
  rcases redeemCode_admitted env req server codes with
    ⟨-, hnone⟩ | ⟨pl, p, code, hentry, hadmitted, heq⟩
  · exact .inl hnone
  · obtain ⟨hgranted, hcodes, -⟩ := @claim_spec env req server codes pl p code
      hadmitted.player
    rw [heq, hgranted, hcodes]
    rcases hsound (pl, p, code) hentry with
      ⟨hitems, hdeliverable, hfits⟩ | ⟨hcredits, hfits⟩
    · have hfits : fitting env req server code = code.items := hfits
      rw [credits_eq_scalars_iff.mpr hdeliverable, hfits, if_neg hitems]
      refine .inr ⟨pl, p, code, hadmitted, rfl, ?_, rfl⟩
      simp [rewards, hitems]
    · have hfits : fitting env req server code = [] := hfits
      have hcredits : code.credits req.guildEventType = [] := hcredits
      rw [hcredits, hfits, if_pos rfl]
      exact .inl ⟨rfl, rfl⟩

/-- The condition is exact: every other request hands out a part of the code,
or hands it out without recording it. -/
theorem allOrNothing_iff :
    AllOrNothing env req server codes ↔ Sound env req server codes := by
  constructor
  · intro hall entry hentry
    rcases redeemCode_admitted env req server codes with
      ⟨hnone, -⟩ | ⟨pl, p, code, hsome, hadmitted, heq⟩
    · rw [hnone] at hentry
      cases hentry
    · rw [hsome] at hentry
      cases hentry
      obtain ⟨hgranted, hcodes, -⟩ := @claim_spec env req server codes pl p code
        hadmitted.player
      unfold AllOrNothing at hall
      simp only [heq, hgranted, hcodes] at hall
      rcases hall with ⟨hnothing, -⟩ | ⟨pl', p', code', hadmitted', hwhole, hsaved⟩
      · rw [List.append_eq_nil_iff, List.map_eq_nil_iff] at hnothing
        exact .inr hnothing
      · have hp : p' = p :=
          Option.some.inj (hadmitted'.place.symm.trans hadmitted.place)
        subst hp
        have hcode : code' = code :=
          Option.some.inj (hadmitted'.found.symm.trans hadmitted.found)
        subst hcode
        have hfits : fitting env req server code' ≠ [] := by
          intro hnone
          rw [if_pos hnone] at hsaved
          exact modify_record_ne hadmitted'.found _ hsaved.symm
        -- Neither part of the list is longer than its part of the code.
        have hlength := congrArg List.length hwhole
        have hscalars := @length_credits_le code' req.guildEventType
        have hitems : (fitting env req server code').length ≤
            code'.items.length := length_taken_le _ _
        simp only [rewards, List.length_append, List.length_map] at hlength
        have hparts := List.append_inj hwhole (by omega)
        have htaken : fitting env req server code' = code'.items :=
          List.map_injective_iff.mpr itemReward_injective hparts.2
        refine .inl ⟨?_, credits_eq_scalars_iff.mp hparts.1, htaken⟩
        rw [← htaken]
        exact hfits
  · intro hsound
    rcases redeemCode_of_sound hsound with
      hnone | ⟨pl, p, code, hadmitted, hgranted, -, hcodes⟩
    · exact .inl hnone
    · exact .inr ⟨pl, p, code, hadmitted, hgranted, hcodes⟩

end Requests

section Lookup

variable {codes : List RedeemCode} {text other : String} {p : Nat}

/-- The code that a text stands for. -/
def lookup (codes : List RedeemCode) (text : String) : Option RedeemCode :=
  codes.find? fun code => code.code == text

theorem getElem?_findCode (hp : findCode codes text = some p) :
    codes[p]? = lookup codes text := by
  unfold findCode at hp
  unfold lookup
  induction codes generalizing p with
  | nil => simp at hp
  | cons head tail ih =>
      rw [List.findIdx?_cons] at hp
      rw [List.find?_cons]
      cases hhead : head.code == text with
      | true =>
          simp only [hhead, if_true, Option.some.injEq] at hp
          subst hp
          rfl
      | false =>
          simp only [hhead, Bool.false_eq_true, if_false,
            Option.map_eq_some_iff] at hp
          obtain ⟨q, hq, rfl⟩ := hp
          exact ih hq

/-- A record is made at the code that was asked for and at no other. -/
theorem lookup_modify (hp : findCode codes text = some p) (name : String) :
    lookup (codes.modify p (record name)) other =
      if other = text then (lookup codes other).map (record name)
      else lookup codes other := by
  unfold findCode at hp
  unfold lookup
  induction codes generalizing p with
  | nil => simp at hp
  | cons head tail ih =>
      rw [List.findIdx?_cons] at hp
      cases hhead : head.code == text with
      | true =>
          simp only [hhead, if_true, Option.some.injEq] at hp
          subst hp
          have htext : head.code = text := by simpa using hhead
          by_cases hother : other = text
          · simp [record, htext, hother]
          · have hne : (text == other) = false := by
              simpa using fun h => hother h.symm
            simp [record, htext, hother, hne]
      | false =>
          simp only [hhead, Bool.false_eq_true, if_false,
            Option.map_eq_some_iff] at hp
          obtain ⟨q, hq, rfl⟩ := hp
          rw [List.modify_succ_cons, List.find?_cons, List.find?_cons, ih hq]
          cases hcode : head.code == other with
          | false => rfl
          | true =>
              have hne : other ≠ text := by
                intro h
                rw [h, hhead] at hcode
                cases hcode
              simp only [if_neg hne]

end Lookup

section Runs

variable {env : Env}

/-- What a request that hands out anything leaves behind. -/
structure Receipt where
  name : String
  code : String
  granted : List Reward
deriving DecidableEq

structure State where
  server : Server
  codes : List RedeemCode
  receipts : List Receipt := []

/-- A request, or anything else the server does to its players and worlds. -/
inductive Step where
  | redeem (req : Request)
  | elsewhere (server : Server)

/-- The receipt of a request, if it hands out anything. -/
def receipt (env : Env) (req : Request) (st : State) : List Receipt :=
  let out := redeemCode env req st.server st.codes
  match st.server.players[req.peer]?, codeText req.cch with
  | some pl, some text =>
      if out.granted = [] then [] else [⟨pl.tankIDName, text, out.granted⟩]
  | _, _ => []

def next (env : Env) (st : State) : Step → State
  | .redeem req =>
      let out := redeemCode env req st.server st.codes
      ⟨out.server, out.codes, st.receipts ++ receipt env req st⟩
  | .elsewhere server => { st with server := server }

def run (env : Env) (st : State) (steps : List Step) : State :=
  steps.foldl (next env) st

/-- Every request of a run is sound where it is served. -/
def SoundRun (env : Env) : State → List Step → Prop
  | _, [] => True
  | st, .redeem req :: rest =>
      Sound env req st.server st.codes ∧
        SoundRun env (next env st (.redeem req)) rest
  | st, .elsewhere server :: rest =>
      SoundRun env (next env st (.elsewhere server)) rest

/-- The players who received anything from a code. -/
def receivers (st : State) (text : String) : List String :=
  (st.receipts.filter fun receipt => receipt.code = text).map Receipt.name

/-- The claims of a code are counted, made by different players, and no more
than allowed. -/
structure Booked (code : RedeemCode) : Prop where
  counted : code.poepleEnter = code.userHasClaim.length
  distinct : code.userHasClaim.Nodup
  allowed : (code.userHasClaim.length : Int) ≤ max 0 code.maximumEnter

/-- A code with further claims. -/
def withClaims (names : List String) (code : RedeemCode) : RedeemCode :=
  { code with
    poepleEnter := code.poepleEnter + names.length
    userHasClaim := code.userHasClaim ++ names }

theorem Booked.record {code : RedeemCode} {pl : Player} {now : Int}
    (hcode : code.Booked) (hmay : MayClaim pl now code) :
    (code.record pl.tankIDName).Booked := by
  obtain ⟨-, hnew, hroom, -⟩ := hmay
  have hcounted := hcode.counted
  constructor
  · simp only [RedeemCode.record, List.length_append, List.length_singleton]
    omega
  · apply List.nodup_append.mpr
    refine ⟨hcode.distinct, List.pairwise_singleton _ _, ?_⟩
    intro name hname other hother heq
    rw [List.mem_singleton] at hother
    subst hother
    subst heq
    exact hnew hname
  · simp only [RedeemCode.record, List.length_append, List.length_singleton]
    omega

theorem withClaims_record (names : List String) (name : String)
    (code : RedeemCode) :
    (withClaims names code).record name = withClaims (names ++ [name]) code := by
  unfold withClaims RedeemCode.record
  simp only [List.append_assoc, List.length_append, List.length_singleton,
    Nat.cast_add, Nat.cast_one, add_assoc]

/-- How the state after a run of sound requests belongs to the codes at its
start. -/
structure Fair (codes : List RedeemCode) (st : State) : Prop where
  claims : ∀ text, lookup st.codes text =
    (lookup codes text).map (withClaims (receivers st text))
  whole : ∀ receipt ∈ st.receipts, ∀ code,
    lookup codes receipt.code = some code → receipt.granted = code.rewards
  booked : ∀ text code, lookup st.codes text = some code → code.Booked

theorem withClaims_nil (code : RedeemCode) : withClaims [] code = code := by
  unfold withClaims
  simp only [List.length_nil, Nat.cast_zero, add_zero, List.append_nil]

theorem Fair.start {server : Server} {codes : List RedeemCode}
    (hcodes : ∀ code ∈ codes, code.Booked) :
    Fair codes { server := server, codes := codes } where
  claims text := by
    change _ = (lookup codes text).map (withClaims [])
    rw [funext withClaims_nil]
    exact Option.map_id'.symm
  whole _ hreceipt := by cases hreceipt
  booked text code hcode := hcodes code (List.mem_of_find?_eq_some hcode)

/-- The receivers of each code after a request of a player. -/
theorem receivers_append (st : State) (server : Server)
    (codes : List RedeemCode) (receipt : Receipt) (text : String) :
    receivers ⟨server, codes, st.receipts ++ [receipt]⟩ text =
      receivers st text ++
        if text = receipt.code then [receipt.name] else [] := by
  unfold receivers
  rw [List.filter_append, List.map_append]
  by_cases htext : text = receipt.code
  · simp [htext]
  · have hne : receipt.code ≠ text := fun h => htext h.symm
    simp [htext, hne]

/-- What a sound request does to the state: it changes the server only, or one
player claims the code asked for and leaves a receipt for all of it. -/
theorem next_redeem_cases {st : State} {req : Request}
    (hsound : Sound env req st.server st.codes) :
    (∃ server, next env st (.redeem req) = { st with server := server }) ∨
    ∃ server pl text p code, findCode st.codes text = some p ∧
      lookup st.codes text = some code ∧ MayClaim pl req.now code ∧
      next env st (.redeem req) =
        ⟨server, st.codes.modify p (record pl.tankIDName),
          st.receipts ++ [⟨pl.tankIDName, text, code.rewards⟩]⟩ := by
  rcases redeemCode_of_sound hsound with
    ⟨hgranted, hcodes⟩ | ⟨pl, p, code, hadmitted, hgranted, hrewards, hcodes⟩
  · have hreceipt : receipt env req st = [] := by
      unfold receipt
      dsimp only
      split
      · rw [if_pos hgranted]
      · rfl
    refine .inl ⟨(redeemCode env req st.server st.codes).server, ?_⟩
    simp only [next, hreceipt, hcodes, List.append_nil]
  · obtain ⟨text, htext, hp⟩ := Option.bind_eq_some_iff.mp hadmitted.place
    have hreceipt : receipt env req st =
        [⟨pl.tankIDName, text, code.rewards⟩] := by
      unfold receipt
      simp only [hadmitted.player, htext, hgranted, if_neg hrewards]
    have hfound : lookup st.codes text = some code :=
      (getElem?_findCode hp).symm.trans hadmitted.found
    refine .inr ⟨(redeemCode env req st.server st.codes).server, pl, text, p,
      code, hp, hfound, hadmitted.mayClaim, ?_⟩
    simp only [next, hreceipt, hcodes]

/-- One sound request keeps the books. -/
theorem Fair.redeem {codes : List RedeemCode} {st : State} {req : Request}
    (hst : Fair codes st) (hsound : Sound env req st.server st.codes) :
    Fair codes (next env st (.redeem req)) := by
  rcases next_redeem_cases hsound with
    ⟨server, hnext⟩ | ⟨server, pl, text, p, code, hp, hfound, hmay, hnext⟩
  · rw [hnext]
    exact ⟨hst.claims, hst.whole, hst.booked⟩
  · rw [hnext]
    constructor
    · intro other
      rw [lookup_modify hp, receivers_append, hst.claims other]
      by_cases hother : other = text
      · simp only [hother, if_true, Option.map_map]
        congr 1
        funext start
        exact withClaims_record _ _ start
      · simp only [if_neg hother, List.append_nil]
    · intro receipt hmem start hstart
      rcases List.mem_append.mp hmem with hold | hnew
      · exact hst.whole receipt hold start hstart
      · rw [List.mem_singleton] at hnew
        subst hnew
        -- The rewards of a code do not change with its claims.
        rw [hst.claims text, hstart] at hfound
        rw [← Option.some.inj hfound]
        rfl
    · intro other after hafter
      rw [lookup_modify hp] at hafter
      by_cases hother : other = text
      · rw [if_pos hother, hother, hfound] at hafter
        rw [← Option.some.inj hafter]
        exact (hst.booked text code hfound).record hmay
      · rw [if_neg hother] at hafter
        exact hst.booked other after hafter

theorem Fair.run {codes : List RedeemCode} {steps : List Step} {st : State}
    (hst : Fair codes st) (hsteps : SoundRun env st steps) :
    Fair codes (run env st steps) := by
  induction steps generalizing st with
  | nil => exact hst
  | cons step rest ih =>
      cases step with
      | redeem req => exact ih (hst.redeem hsteps.1) hsteps.2
      | elsewhere server => exact ih ⟨hst.claims, hst.whole, hst.booked⟩ hsteps

/-- Gems and a piece of dirt, for one player. -/
def exampleCode : RedeemCode :=
  { items := [(2, 1)], gemss := 500, maximumEnter := 1, time := 100
    code := "FREEGEMS01" }

/-- A server with one player, whose backpack has these slots. -/
def exampleServer (inv : List (Int × Int)) : Server :=
  { players := [{ tankIDName := "Player", inv := inv }] }

/-- The player asks for the code. -/
def exampleRequest (nowMs : Int) : Request :=
  ⟨0, 10, nowMs, "Summer Clash",
    "buttonClicked|redeem_code_button\nredeemcode|freegems01"⟩

theorem exampleCode_booked : ∀ code ∈ [exampleCode], code.Booked := by
  intro code hcode
  rw [List.mem_singleton.mp hcode]
  exact ⟨rfl, List.nodup_nil, by decide⟩

/-- A request of a sound run is sound where it is served. -/
theorem SoundRun.at {steps rest : List Step} {st : State} {req : Request}
    (hsteps : SoundRun env st (steps ++ .redeem req :: rest)) :
    Sound env req (RedeemCode.run env st steps).server
      (RedeemCode.run env st steps).codes := by
  induction steps generalizing st with
  | nil => exact hsteps.1
  | cons step steps ih =>
      cases step with
      | redeem other => exact ih hsteps.2
      | elsewhere server => exact ih hsteps

end Runs

end RedeemCode

end NopyServer
