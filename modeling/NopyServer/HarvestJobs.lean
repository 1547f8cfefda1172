/-
The jobs of Auto Harvest: `start_job`, `cancel_job` and `tick_jobs`.  A job
walks over the blocks of a world, a limited number of them in a tick.  What the
harvest of one tree drops and changes is not followed here; it is a parameter
that leaves the worlds loaded and of their size.
-/
import NopyServer.AutoHarvest
import NopyServer.Locks
import NopyServer.WorldStoreNames
import Mathlib.Data.List.Nodup
import Mathlib.Data.List.Perm.Basic

namespace NopyServer

namespace PthtAutoHarvest

/-- `HarvestJob`; a pointer to a world is its index.  The last two members are
not in the source: which started job it is and which block indices have been
examined, so that the steps of a job can be talked about. -/
structure HarvestJob where
  worldName : String
  cachedWorld : Option Nat
  nextIndex : Nat := 0
  harvestedTotal : Nat := 0
  readySnapshot : Nat := 0
  startedAtMs : Int := 0
  nextTickMs : Int := 0
  serial : Nat
  examined : List Nat := []
deriving DecidableEq

def kTreesPerTick : Nat := 25

def kScanPerTick : Nat := 10000

def kTickIntervalMs : Int := 20

/-- The players by the slot of their peer, and the worlds.  A slot without a
connected peer or without its data is `none`. -/
structure Scene where
  peers : Nat → Option Player
  store : Store

/-- A world loaded at a place, as far as a job depends on it. -/
def shape (world : World) : String × Nat := (world.name, world.blocks.length)

/-- The worlds are still loaded at their places and have their sizes. -/
def Stays (worlds worlds' : List World) : Prop :=
  worlds.map shape <+: worlds'.map shape

instance (worlds worlds' : List World) : Decidable (Stays worlds worlds') :=
  inferInstanceAs (Decidable (_ <+: _))

/-- `calculate_drop_count`, `harvest_seed`, `drop_rare_item` and the drop of the
weather: what the harvest of a ripe tree does to the players and the worlds. -/
structure Harvest where
  run : (peer w index : Nat) → (now : Int) → Scene → Scene
  stays : ∀ peer w index now scene,
    Stays scene.store.worlds (run peer w index now scene).store.worlds

/-- A job that has been erased, with the player in the slot at that time. -/
structure Ended where
  peer : Nat
  job : HarvestJob
  owner : Option Player
  cancelled : Bool
deriving DecidableEq

/-- The globals and the server around them.  The last three members are not in
the source: the peers from whom the cost has been taken, the peers whose jobs
have been started, both in this order, and the erased jobs. -/
structure State where
  scene : Scene
  process : Process := {}
  jobs : List (Nat × HarvestJob) := []
  takes : List Nat := []
  starts : List Nat := []
  ended : List Ended := []

/-- `Inventory::Has`. -/
def has (items : Items) (pl : Player) (itemId amount : Int) : Bool :=
  0 < itemId && itemId < items.size &&
    pl.inv.any fun slot => slot.1 == itemId && amount ≤ slot.2

/-- `get_remaining_cooldown` after `load`. -/
def remainingCooldown (cfg : Config) (worldName : String) (now : Int) : Int :=
  if cfg.cooldownSeconds.toInt ≤ 0 then 0
  else
    match cfg.lastUsedByWorld.entries.find? fun entry =>
        entry.1 == toLower worldName with
    | none => 0
    | some entry => max (entry.2.toInt + cfg.cooldownSeconds.toInt - now) 0

/-- The configured cost is nothing. -/
def free (cfg : Config) : Prop :=
  cfg.payItemId.toInt ≤ 0 ∨ cfg.payCount.toInt ≤ 0

instance (cfg : Config) : Decidable (free cfg) :=
  inferInstanceAs (Decidable (_ ∨ _))

/-- `has_cost` after `load`. -/
def hasCost (items : Items) (cfg : Config) (pl : Player) : Bool :=
  free cfg || has items pl cfg.payItemId.toInt cfg.payCount.toInt

/-- The session of a player in the scene. -/
def Scene.session (scene : Scene) (pl : Player) (now : Int) : Session :=
  { pl := pl, worlds := scene.store.worlds, now := now,
    rands := scene.store.rands }

def Scene.putBack (scene : Scene) (peer : Nat) (s : Session) : Scene where
  peers := Function.update scene.peers peer (some s.pl)
  store := { scene.store with worlds := s.worlds, rands := s.rands }

/-- `take_cost` after `load`. -/
def takeCost (env : Env) (peer : Nat) (pl : Player) (now : Int) (s : State) :
    Bool × State :=
  let cfg := s.process.cfg
  if free cfg then (true, { s with takes := s.takes ++ [peer] })
  else if has env.items pl cfg.payItemId.toInt cfg.payCount.toInt = false then
    (false, s)
  else
    let taken := Inventory.modify env (s.scene.session pl now)
      cfg.payItemId.toInt (-cfg.payCount.toInt) true
    let scene := s.scene.putBack peer taken.session
    if taken.ret = 0 then
      (true, { s with scene := scene, takes := s.takes ++ [peer] })
    else (false, { s with scene := scene })

/-- `is_ready_tree`. -/
def isReadyTree (items : Items) (now : Int) (block : WorldBlock) : Bool :=
  0 < block.fg.toNat && block.fg.toNat < items.size &&
    (items.item block.fg.toNat).blockType == .seed &&
    block.planted + (items.item block.fg.toNat).growTime ≤ now

/-- `count_ready_trees`. -/
def countReadyTrees (items : Items) (world : World) (now : Int) : Nat :=
  world.blocks.countP (isReadyTree items now)

/-- `has_active_job`. -/
def hasActiveJob (s : State) (peer : Nat) : Bool :=
  s.jobs.any fun entry => entry.1 == peer

/-- `start_job` from the payment on. -/
def payAndStart (env : Env) (peer : Nat) (pl : Player) (ms : Int) (w : Nat)
    (world : World) (s : State) : State :=
  let now := ms / 1000
  if hasCost env.items s.process.cfg pl = false then s
  else
    let paid := takeCost env peer pl now s
    if paid.1 = false then paid.2
    else
      let job : HarvestJob :=
        { worldName := world.name
          cachedWorld := some w
          readySnapshot := countReadyTrees env.items world now
          startedAtMs := ms
          serial := paid.2.starts.length }
      { paid.2 with
        jobs := (peer, job) :: paid.2.jobs
        process := markUsed env.items world.name (Int64.ofInt now) paid.2.process
        starts := paid.2.starts ++ [peer] }

/-- `start_job` at a time in milliseconds. -/
def startJob (env : Env) (peer : Nat) (ms : Int) (s : State) : State :=
  match s.scene.peers peer with
  | none => s
  | some pl =>
      if hasActiveJob s peer then s
      else
        let found := s.scene.store.findWorld pl.world
        let s := { s with scene := { s.scene with store := found.2 } }
        match found.1.bind fun w => found.2.worlds[w]?.map fun world =>
            (w, world) with
        | none => s
        | some (w, world) =>
            if toLower world.ownerName ≠ toLower pl.tankIDName then s
            else
              let s := { s with process := load env.items s.process }
              if 0 < remainingCooldown s.process.cfg pl.world (ms / 1000) then s
              else if countReadyTrees env.items world (ms / 1000) = 0 then s
              else payAndStart env peer pl ms w world s

/-- `cancel_job`. -/
def cancelJob (peer : Nat) (s : State) : State :=
  { s with
    jobs := s.jobs.filter fun entry => entry.1 != peer
    ended := ((s.jobs.filter fun entry => entry.1 == peer).map fun entry =>
      { peer := peer, job := entry.2, owner := s.scene.peers peer
        cancelled := true }) ++ s.ended }

section Tick

variable (env : Env) (harvest : Harvest)

/-- `process_single_tree`. -/
def processSingleTree (peer w index : Nat) (now : Int) (scene : Scene) :
    Bool × Scene :=
  match scene.peers peer, scene.store.worlds[w]?.bind fun world =>
      world.blocks[index]? with
  | some _, some block =>
      if isReadyTree env.items now block then
        (true, harvest.run peer w index now scene)
      else (false, scene)
  | _, _ => (false, scene)

/-- The loop of a tick; `left` indices can still be scanned. -/
def scanBlocks (peer w : Nat) (now : Int) (blockCount : Nat) :
    (left processed : Nat) → HarvestJob → Scene → HarvestJob × Scene
  | 0, _, job, scene => (job, scene)
  | left + 1, processed, job, scene =>
      if job.nextIndex < blockCount ∧ processed < kTreesPerTick then
        let done := processSingleTree env harvest peer w job.nextIndex now scene
        scanBlocks peer w now blockCount left (processed + done.1.toNat)
          { job with
            harvestedTotal := job.harvestedTotal + done.1.toNat
            nextIndex := job.nextIndex + 1
            examined := job.examined ++ [job.nextIndex] } done.2
      else (job, scene)

/-- What a tick makes of a job: whether it stays, the job and the scene. -/
structure Ticked where
  kept : Bool
  job : HarvestJob
  scene : Scene

/-- The cached world of a job, or the world that is found under its name. -/
def lookUp (job : HarvestJob) (store : Store) : Option Nat × Store :=
  match job.cachedWorld.filter fun w =>
      store.worlds[w]?.any fun world => world.name == job.worldName with
  | some w => (some w, store)
  | none => store.findWorld job.worldName

/-- The body of `tick_jobs` for one job. -/
def tickJob (ms : Int) (peer : Nat) (job : HarvestJob) (scene : Scene) :
    Ticked :=
  match scene.peers peer with
  | none => ⟨false, job, scene⟩
  | some pl =>
      if ms < job.nextTickMs then ⟨true, job, scene⟩
      else
        let job := { job with nextTickMs := ms + kTickIntervalMs }
        if pl.world ≠ job.worldName then ⟨false, job, scene⟩
        else
          let found := lookUp job scene.store
          let job := { job with cachedWorld := found.1 }
          let scene := { scene with store := found.2 }
          match found.1 with
          | none => ⟨false, job, scene⟩
          | some w =>
              let blockCount :=
                (scene.store.worlds[w]?.map fun world => world.blocks.length).getD 0
              let scanned := scanBlocks env harvest peer w (ms / 1000) blockCount
                kScanPerTick 0 job scene
              ⟨scanned.1.nextIndex < blockCount, scanned.1, scanned.2⟩

/-- The jobs that stay, those that are erased, and the scene. -/
def tickAll (ms : Int) : List (Nat × HarvestJob) → Scene →
    List (Nat × HarvestJob) × List Ended × Scene
  | [], scene => ([], [], scene)
  | (peer, job) :: jobs, scene =>
      let ticked := tickJob env harvest ms peer job scene
      let rest := tickAll ms jobs ticked.scene
      if ticked.kept then ((peer, ticked.job) :: rest.1, rest.2)
      else
        (rest.1,
          { peer := peer, job := ticked.job, owner := scene.peers peer
            cancelled := false } :: rest.2.1, rest.2.2)

/-- `tick_jobs` at a time in milliseconds. -/
def tickJobs (ms : Int) (s : State) : State :=
  let ticked := tickAll env harvest ms s.jobs s.scene
  { s with
    scene := ticked.2.2
    jobs := ticked.1
    ended := ticked.2.1 ++ s.ended }

/-- A call about the jobs, or anything else that happens on the server. -/
inductive Event where
  | start (peer : Nat) (ms : Int)
  | cancel (peer : Nat)
  | tick (ms : Int)
  | rest (scene : Scene) (process : Process)

def apply (s : State) : Event → State
  | .start peer ms => startJob env peer ms s
  | .cancel peer => cancelJob peer s
  | .tick ms => tickJobs env harvest ms s
  | .rest scene process => { s with scene := scene, process := process }

def run (s : State) (events : List Event) : State :=
  events.foldl (apply env harvest) s

end Tick

/-! What a job keeps. -/

theorem Stays.trans {first second third : List World} (h : Stays first second)
    (h' : Stays second third) : Stays first third :=
  List.IsPrefix.trans h h'

theorem stays_refl (worlds : List World) : Stays worlds worlds :=
  List.prefix_refl _

theorem Stays.get {worlds worlds' : List World} (h : Stays worlds worlds')
    {w : Nat} {world : World} (hw : worlds[w]? = some world) :
    ∃ world', worlds'[w]? = some world' ∧ shape world' = shape world := by
  obtain ⟨more, hmore⟩ := h
  obtain ⟨hlt, -⟩ := List.getElem?_eq_some_iff.mp hw
  have hshape : (worlds'.map shape)[w]? = some (shape world) := by
    rw [← hmore, List.getElem?_append_left (by simpa using hlt), List.getElem?_map,
      hw]
    rfl
  rw [List.getElem?_map] at hshape
  exact Option.map_eq_some_iff.mp hshape

/-- The world of a job is loaded at its place and has `n` blocks. -/
def InWorld (worlds : List World) (job : HarvestJob) (n : Nat) : Prop :=
  ∃ w world, job.cachedWorld = some w ∧ worlds[w]? = some world ∧
    shape world = (job.worldName, n)

/-- A job with its world of `n` blocks: the indices below `nextIndex` have been
examined in order, each of them once. -/
structure Follows (worlds : List World) (starts : List Nat) (peer : Nat)
    (job : HarvestJob) (n : Nat) : Prop where
  started : starts[job.serial]? = some peer
  inWorld : InWorld worlds job n
  examined : job.examined = List.range job.nextIndex
  bounded : job.nextIndex ≤ n

theorem InWorld.stays {worlds worlds' : List World} {job : HarvestJob} {n : Nat}
    (hin : InWorld worlds job n) (h : Stays worlds worlds') :
    InWorld worlds' job n := by
  obtain ⟨w, world, hcached, hworld, hshape⟩ := hin
  obtain ⟨world', hworld', heq⟩ := h.get hworld
  exact ⟨w, world', hcached, hworld', heq.trans hshape⟩

theorem Follows.stays {worlds worlds' : List World} {starts : List Nat}
    {peer : Nat} {job : HarvestJob} {n : Nat}
    (hfollows : Follows worlds starts peer job n) (h : Stays worlds worlds') :
    Follows worlds' starts peer job n where
  started := hfollows.started
  inWorld := hfollows.inWorld.stays h
  examined := hfollows.examined
  bounded := hfollows.bounded

theorem Follows.more {worlds : List World} {starts : List Nat} {peer : Nat}
    {job : HarvestJob} {n : Nat} (hfollows : Follows worlds starts peer job n)
    (more : List Nat) : Follows worlds (starts ++ more) peer job n where
  started := by
    obtain ⟨hlt, -⟩ := List.getElem?_eq_some_iff.mp hfollows.started
    rw [List.getElem?_append_left hlt]
    exact hfollows.started
  inWorld := hfollows.inWorld
  examined := hfollows.examined
  bounded := hfollows.bounded

section Tick

variable (env : Env) (harvest : Harvest) {starts : List Nat} {peer : Nat}
  {job : HarvestJob} {scene : Scene} {n : Nat}

theorem processSingleTree_stays (w index : Nat) (now : Int) :
    Stays scene.store.worlds
      (processSingleTree env harvest peer w index now scene).2.store.worlds := by
  unfold processSingleTree
  split
  · split
    · exact harvest.stays ..
    · exact stays_refl _
  · exact stays_refl _

/-- The loop examines the next indices, none of them beyond the last block. -/
theorem scanBlocks_follows (w : Nat) (now : Int) (left processed : Nat)
    (hfollows : Follows scene.store.worlds starts peer job n) :
    Stays scene.store.worlds
      (scanBlocks env harvest peer w now n left processed job
        scene).2.store.worlds ∧
    Follows (scanBlocks env harvest peer w now n left processed job
        scene).2.store.worlds starts peer
      (scanBlocks env harvest peer w now n left processed job scene).1 n ∧
    (scanBlocks env harvest peer w now n left processed job scene).1.serial =
      job.serial := by
  induction left generalizing processed job scene with
  | zero => exact ⟨stays_refl _, hfollows, rfl⟩
  | succ left ih =>
      rw [scanBlocks]
      split_ifs with hmore
      · have hstays : Stays scene.store.worlds
            (processSingleTree env harvest peer w job.nextIndex now
              scene).2.store.worlds :=
          processSingleTree_stays env harvest w job.nextIndex now
        have hstill := hfollows.stays hstays
        have hnext : Follows
            (processSingleTree env harvest peer w job.nextIndex now
              scene).2.store.worlds starts peer
            { job with
              harvestedTotal := job.harvestedTotal +
                (processSingleTree env harvest peer w job.nextIndex now
                  scene).1.toNat
              nextIndex := job.nextIndex + 1
              examined := job.examined ++ [job.nextIndex] } n := by
          constructor
          · exact hstill.started
          · exact hstill.inWorld
          · rw [hfollows.examined, List.range_succ]
          · exact hmore.1
        obtain ⟨hstays', hfollows', hserial⟩ := ih _ hnext
        exact ⟨hstays.trans hstays', hfollows', hserial⟩
      · exact ⟨stays_refl _, hfollows, rfl⟩

/-- The cached world of a job is the one under its name. -/
theorem lookUp_of_inWorld {store : Store} (hin : InWorld store.worlds job n) :
    lookUp job store = (job.cachedWorld, store) := by
  obtain ⟨w, world, hcached, hworld, hshape⟩ := hin
  have hname : world.name = job.worldName := congrArg Prod.fst hshape
  have hfits : (job.cachedWorld.filter fun w =>
      store.worlds[w]?.any fun world => world.name == job.worldName) = some w := by
    rw [hcached, Option.filter_some]
    simp [hworld, hname]
  rw [lookUp, hfits, hcached]

/-- A tick in time with the owner in the world goes on scanning. -/
theorem tickJob_scans {ms : Int} {pl : Player} (hpl : scene.peers peer = some pl)
    (hms : ¬ms < job.nextTickMs) (hworld : pl.world = job.worldName)
    (hin : InWorld scene.store.worlds job n) :
    ∃ w, tickJob env harvest ms peer job scene =
      ⟨(scanBlocks env harvest peer w (ms / 1000) n kScanPerTick 0
          { job with nextTickMs := ms + kTickIntervalMs } scene).1.nextIndex < n,
        (scanBlocks env harvest peer w (ms / 1000) n kScanPerTick 0
          { job with nextTickMs := ms + kTickIntervalMs } scene).1,
        (scanBlocks env harvest peer w (ms / 1000) n kScanPerTick 0
          { job with nextTickMs := ms + kTickIntervalMs } scene).2⟩ := by
  have hfound : lookUp { job with nextTickMs := ms + kTickIntervalMs } scene.store =
      (job.cachedWorld, scene.store) := lookUp_of_inWorld hin
  obtain ⟨w, world, hcached, hget, hshape⟩ := hin
  have hcount : (scene.store.worlds[w]?.map fun world =>
      world.blocks.length).getD 0 = n := by
    rw [hget]
    exact congrArg Prod.snd hshape
  refine ⟨w, ?_⟩
  simp only [hcached] at hfound
  simp only [tickJob, hpl, hms, if_false, hworld, ne_eq, not_true_eq_false, hfound,
    hcached, hcount]

/-- What a tick does to a job: when it is erased with its owner in the world,
all blocks have been examined. -/
structure TickSpec (scene : Scene) (starts : List Nat) (peer : Nat)
    (job : HarvestJob) (n : Nat) (ticked : Ticked) : Prop where
  stays : Stays scene.store.worlds ticked.scene.store.worlds
  follows : Follows ticked.scene.store.worlds starts peer ticked.job n
  serial : ticked.job.serial = job.serial
  completed : ticked.kept = false → ∀ pl, scene.peers peer = some pl →
    pl.world = ticked.job.worldName → ticked.job.nextIndex = n

theorem tickJob_spec (ms : Int)
    (hfollows : Follows scene.store.worlds starts peer job n) :
    TickSpec scene starts peer job n (tickJob env harvest ms peer job scene) := by
  have hticked : Follows scene.store.worlds starts peer
      { job with nextTickMs := ms + kTickIntervalMs } n :=
    ⟨hfollows.started, hfollows.inWorld, hfollows.examined, hfollows.bounded⟩
  cases hpl : scene.peers peer with
  | none =>
      have hgone : tickJob env harvest ms peer job scene = ⟨false, job, scene⟩ := by
        simp [tickJob, hpl]
      rw [hgone]
      exact ⟨stays_refl _, hfollows, rfl, fun _ pl hsome => by simp [hpl] at hsome⟩
  | some pl =>
      by_cases hms : ms < job.nextTickMs
      · have hwaits : tickJob env harvest ms peer job scene = ⟨true, job, scene⟩ := by
          simp [tickJob, hpl, hms]
        rw [hwaits]
        exact ⟨stays_refl _, hfollows, rfl, fun h => by cases h⟩
      · by_cases hworld : pl.world = job.worldName
        · obtain ⟨w, hscans⟩ := tickJob_scans env harvest hpl hms hworld
            hfollows.inWorld
          obtain ⟨hstays, hstill, hserial⟩ := scanBlocks_follows env harvest w
            (ms / 1000) kScanPerTick 0 hticked
          rw [hscans]
          refine ⟨hstays, hstill, hserial, ?_⟩
          intro hdone _ _ _
          exact Nat.le_antisymm hstill.bounded
            (Nat.not_lt.mp (of_decide_eq_false hdone))
        · have hleft : tickJob env harvest ms peer job scene =
              ⟨false, { job with nextTickMs := ms + kTickIntervalMs }, scene⟩ := by
            simp [tickJob, hpl, hms, hworld]
          rw [hleft]
          refine ⟨stays_refl _, hticked, rfl, ?_⟩
          intro _ other hother hthere
          rw [hpl] at hother
          cases hother
          exact absurd hthere hworld

/-- An erased job: without a cancellation, and with its owner in the world, it
has examined all blocks. -/
def EndedWell (worlds : List World) (starts : List Nat) (e : Ended) : Prop :=
  ∃ n, Follows worlds starts e.peer e.job n ∧
    (e.cancelled = false → ∀ pl, e.owner = some pl →
      pl.world = e.job.worldName → e.job.nextIndex = n)

theorem EndedWell.stays {worlds worlds' : List World} {e : Ended}
    (hended : EndedWell worlds starts e) (h : Stays worlds worlds') :
    EndedWell worlds' starts e := by
  obtain ⟨n, hfollows, hcomplete⟩ := hended
  exact ⟨n, hfollows.stays h, hcomplete⟩

theorem EndedWell.more {worlds : List World} {e : Ended}
    (hended : EndedWell worlds starts e) (more : List Nat) :
    EndedWell worlds (starts ++ more) e := by
  obtain ⟨n, hfollows, hcomplete⟩ := hended
  exact ⟨n, hfollows.more more, hcomplete⟩

/-- What a tick does to all jobs. -/
structure TickAllSpec (jobs : List (Nat × HarvestJob)) (scene : Scene)
    (starts : List Nat)
    (ticked : List (Nat × HarvestJob) × List Ended × Scene) : Prop where
  stays : Stays scene.store.worlds ticked.2.2.store.worlds
  live : ∀ entry ∈ ticked.1,
    ∃ n, Follows ticked.2.2.store.worlds starts entry.1 entry.2 n
  ended : ∀ e ∈ ticked.2.1, EndedWell ticked.2.2.store.worlds starts e
  peers : (ticked.1.map Prod.fst).Sublist (jobs.map Prod.fst)
  serials : (ticked.1.map (fun entry => entry.2.serial) ++
    ticked.2.1.map (fun e => e.job.serial)).Perm
      (jobs.map fun entry => entry.2.serial)

/-- A job that goes on, in front of the others. -/
theorem TickSpec.cons_kept {ticked : Ticked} {jobs : List (Nat × HarvestJob)}
    {rest : List (Nat × HarvestJob) × List Ended × Scene}
    (hfirst : TickSpec scene starts peer job n ticked)
    (hrest : TickAllSpec jobs ticked.scene starts rest) :
    TickAllSpec ((peer, job) :: jobs) scene starts
      ((peer, ticked.job) :: rest.1, rest.2) where
  stays := hfirst.stays.trans hrest.stays
  live entry hentry := by
    rcases List.mem_cons.mp hentry with rfl | hentry
    · exact ⟨n, hfirst.follows.stays hrest.stays⟩
    · exact hrest.live entry hentry
  ended := hrest.ended
  peers := hrest.peers.cons_cons peer
  serials := by
    simp only [List.map_cons, List.cons_append, hfirst.serial]
    exact hrest.serials.cons _

/-- A job that is erased, in front of the others. -/
theorem TickSpec.cons_erased {ticked : Ticked} {jobs : List (Nat × HarvestJob)}
    {rest : List (Nat × HarvestJob) × List Ended × Scene}
    (hfirst : TickSpec scene starts peer job n ticked)
    (hkept : ticked.kept = false)
    (hrest : TickAllSpec jobs ticked.scene starts rest) :
    TickAllSpec ((peer, job) :: jobs) scene starts
      (rest.1,
        { peer := peer, job := ticked.job, owner := scene.peers peer
          cancelled := false } :: rest.2.1, rest.2.2) where
  stays := hfirst.stays.trans hrest.stays
  live := hrest.live
  ended e he := by
    rcases List.mem_cons.mp he with rfl | he
    · exact ⟨n, hfirst.follows.stays hrest.stays,
        fun _ => hfirst.completed hkept⟩
    · exact hrest.ended e he
  peers := hrest.peers.cons peer
  serials := by
    simp only [List.map_cons, hfirst.serial]
    exact List.perm_middle.trans (hrest.serials.cons _)

theorem tickAll_spec (ms : Int) {jobs : List (Nat × HarvestJob)}
    (hlive : ∀ entry ∈ jobs,
      ∃ n, Follows scene.store.worlds starts entry.1 entry.2 n) :
    TickAllSpec jobs scene starts (tickAll env harvest ms jobs scene) := by
  induction jobs generalizing scene with
  | nil =>
      exact ⟨stays_refl _, by simp [tickAll], by simp [tickAll],
        List.Sublist.refl _, List.Perm.refl _⟩
  | cons entry jobs ih =>
      obtain ⟨peer, job⟩ := entry
      obtain ⟨n, hfollows⟩ := hlive (peer, job) List.mem_cons_self
      have hfirst := tickJob_spec env harvest ms hfollows
      have hlater : ∀ entry ∈ jobs, ∃ n,
          Follows (tickJob env harvest ms peer job scene).scene.store.worlds starts
            entry.1 entry.2 n := by
        intro entry hentry
        obtain ⟨m, hm⟩ := hlive entry (List.mem_cons_of_mem _ hentry)
        exact ⟨m, hm.stays hfirst.stays⟩
      rw [tickAll]
      split_ifs with hkept
      · exact hfirst.cons_kept (ih hlater)
      · exact hfirst.cons_erased (Bool.eq_false_iff.mpr hkept) (ih hlater)

end Tick

/-! The payment. -/

/-- What a player pays for a job: nothing when it is free, else one call of
`Modify` that succeeds, which takes nothing in infinite mode. -/
structure Charged (env : Env) (cfg : Config) (s : Session) (next : Player) :
    Prop where
  gratis : free cfg → next = s.pl
  called : ¬free cfg →
    (Inventory.modify env s cfg.payItemId.toInt (-cfg.payCount.toInt) true).ret =
        0 ∧
      next = (Inventory.modify env s cfg.payItemId.toInt (-cfg.payCount.toInt)
        true).session.pl
  infinite : s.pl.infiniteMode = true → next = s.pl
  amount : ¬free cfg → Inventory.SlotInv s.pl.inv →
    Inventory.Quiet env s.pl cfg.payItemId.toInt (-cfg.payCount.toInt) →
    Given s.pl cfg.payItemId.toInt (-cfg.payCount.toInt) next

theorem charged_of_free {env : Env} {cfg : Config} (hfree : free cfg)
    (s : Session) : Charged env cfg s s.pl where
  gratis _ := rfl
  called hnot := absurd hfree hnot
  infinite _ := rfl
  amount hnot := absurd hfree hnot

theorem charged_of_modify {env : Env} {cfg : Config} (hcost : ¬free cfg)
    {s : Session}
    (hret : (Inventory.modify env s cfg.payItemId.toInt (-cfg.payCount.toInt)
      true).ret = 0) :
    Charged env cfg s (Inventory.modify env s cfg.payItemId.toInt
      (-cfg.payCount.toInt) true).session.pl where
  gratis hfree := absurd hfree hcost
  called _ := ⟨hret, rfl⟩
  infinite hinfinite := by
    have hcount : 0 < cfg.payCount.toInt := by
      by_contra hnot
      exact hcost (Or.inr (by omega))
    rw [Inventory.modify_infinite true hinfinite (by omega)]
  amount _ hslots hquiet := by
    rcases modify_moves (i := cfg.payItemId.toInt) (c := -cfg.payCount.toInt) true
      hslots hquiet with ⟨next, left, heq, hgiven⟩ | ⟨left, heq⟩
    · rw [heq]
      exact hgiven
    · rw [heq] at hret
      cases hret

/-- `take_cost` succeeds with the cost paid, or it fails. -/
theorem takeCost_cases (env : Env) {peer : Nat} {pl : Player} (now : Int)
    {s : State} (hpl : s.scene.peers peer = some pl) :
    ((takeCost env peer pl now s).1 = true ∧
      (∃ next, (takeCost env peer pl now s).2.scene.peers peer = some next ∧
        Charged env s.process.cfg (s.scene.session pl now) next) ∧
      (takeCost env peer pl now s).2.jobs = s.jobs ∧
      (takeCost env peer pl now s).2.takes = s.takes ++ [peer] ∧
      (takeCost env peer pl now s).2.starts = s.starts ∧
      (takeCost env peer pl now s).2.ended = s.ended) ∨
    ((takeCost env peer pl now s).1 = false ∧
      (takeCost env peer pl now s).2.jobs = s.jobs ∧
      (takeCost env peer pl now s).2.takes = s.takes ∧
      (takeCost env peer pl now s).2.starts = s.starts ∧
      (takeCost env peer pl now s).2.ended = s.ended) := by
  simp only [takeCost]
  split_ifs with hfree hhas hret
  · exact Or.inl ⟨rfl, ⟨pl, hpl, charged_of_free hfree _⟩, rfl, rfl, rfl, rfl⟩
  · exact Or.inr ⟨rfl, rfl, rfl, rfl, rfl⟩
  · refine Or.inl ⟨rfl, ⟨_, ?_, charged_of_modify hfree hret⟩, rfl, rfl, rfl, rfl⟩
    simp [Scene.putBack]
  · exact Or.inr ⟨rfl, rfl, rfl, rfl, rfl⟩

/-- A call of `start_job` that starts no job leaves the jobs and what has been
recorded of them. -/
structure SameJobs (s s' : State) : Prop where
  jobs : s'.jobs = s.jobs
  takes : s'.takes = s.takes
  starts : s'.starts = s.starts
  ended : s'.ended = s.ended

/-- The job that a call of `start_job` starts. -/
def newJob (env : Env) (ms : Int) (w : Nat) (world : World) (s : State) :
    HarvestJob where
  worldName := world.name
  cachedWorld := some w
  readySnapshot := countReadyTrees env.items world (ms / 1000)
  startedAtMs := ms
  serial := s.starts.length

/-- A call of `start_job` that starts a job: the player has paid for it. -/
structure Starts (env : Env) (peer : Nat) (ms : Int) (s s' : State) : Prop where
  idle : hasActiveJob s peer = false
  charged : ∃ pl next, s.scene.peers peer = some pl ∧
    s'.scene.peers peer = some next ∧
    Charged env (load env.items s.process).cfg (s.scene.session pl (ms / 1000)) next
  job : ∃ w world, s.scene.store.worlds[w]? = some world ∧
    s'.jobs = (peer, newJob env ms w world s) :: s.jobs
  takes : s'.takes = s.takes ++ [peer]
  starts : s'.starts = s.starts ++ [peer]
  ended : s'.ended = s.ended

theorem payAndStart_cases (env : Env) {peer : Nat} {pl : Player} (ms : Int)
    (w : Nat) (world : World) {s : State} (hpl : s.scene.peers peer = some pl) :
    SameJobs s (payAndStart env peer pl ms w world s) ∨
      (∃ next, (payAndStart env peer pl ms w world s).scene.peers peer =
          some next ∧
        Charged env s.process.cfg (s.scene.session pl (ms / 1000)) next) ∧
      (payAndStart env peer pl ms w world s).jobs =
        (peer, newJob env ms w world s) :: s.jobs ∧
      (payAndStart env peer pl ms w world s).takes = s.takes ++ [peer] ∧
      (payAndStart env peer pl ms w world s).starts = s.starts ++ [peer] ∧
      (payAndStart env peer pl ms w world s).ended = s.ended := by
  have hcases := takeCost_cases env (ms / 1000) hpl
  simp only [payAndStart]
  generalize takeCost env peer pl (ms / 1000) s = paid at *
  by_cases hcost : hasCost env.items s.process.cfg pl = false
  · rw [if_pos hcost]
    exact Or.inl ⟨rfl, rfl, rfl, rfl⟩
  · rw [if_neg hcost]
    rcases hcases with ⟨hpaid, hcharged, hjobs, htakes, hstarts, hended⟩ |
      ⟨hpaid, hjobs, htakes, hstarts, hended⟩
    · rw [if_neg (by simp [hpaid])]
      refine Or.inr ⟨hcharged, ?_, htakes, ?_, hended⟩
      · simp only [hjobs, hstarts, newJob]
      · simp only [hstarts]
    · rw [if_pos hpaid]
      exact Or.inl ⟨hjobs, htakes, hstarts, hended⟩

theorem session_findWorld (scene : Scene) (name : String) (pl : Player)
    (now : Int) :
    { scene with store := (scene.store.findWorld name).2 }.session pl now =
      scene.session pl now := by
  have hrands : (scene.store.findWorld name).2.rands = scene.store.rands := by
    unfold Store.findWorld
    dsimp only
    split
    · rfl
    · split <;> rfl
  simp only [Scene.session, Store.findWorld_worlds, hrands]

theorem startJob_cases (env : Env) (peer : Nat) (ms : Int) (s : State) :
    SameJobs s (startJob env peer ms s) ∨
      Starts env peer ms s (startJob env peer ms s) := by
  have hsame : ∀ {scene process},
      SameJobs s { s with scene := scene, process := process } :=
    ⟨rfl, rfl, rfl, rfl⟩
  unfold startJob
  split
  · exact Or.inl hsame
  · next pl hpl =>
      have hworlds := Store.findWorld_worlds pl.world s.scene.store
      have hsession := session_findWorld s.scene pl.world pl (ms / 1000)
      generalize s.scene.store.findWorld pl.world = found at *
      simp only
      by_cases hactive : hasActiveJob s peer = true
      · rw [if_pos hactive]
        exact Or.inl hsame
      rw [if_neg hactive]
      split
      · exact Or.inl hsame
      next w world hfound =>
      obtain ⟨w', -, hworld⟩ := Option.bind_eq_some_iff.mp hfound
      obtain ⟨world', hget, heq⟩ := Option.map_eq_some_iff.mp hworld
      obtain ⟨rfl, rfl⟩ := Prod.mk.inj heq
      rw [hworlds] at hget
      split_ifs
      · exact Or.inl hsame
      · exact Or.inl hsame
      · exact Or.inl hsame
      · -- the state in which `start_job` comes to the payment
        have hcases := payAndStart_cases env ms w' world' (s := { s with
          scene := { s.scene with store := found.2 }
          process := load env.items s.process }) hpl
        rcases hcases with hsame' | ⟨⟨next, hnext, hcharged⟩, hrest⟩
        · exact Or.inl ⟨hsame'.jobs, hsame'.takes, hsame'.starts, hsame'.ended⟩
        · refine Or.inr ⟨by simpa using hactive, ⟨pl, next, hpl, hnext, ?_⟩,
            ⟨w', world', hget, hrest.1⟩, hrest.2.1, hrest.2.2.1, hrest.2.2.2⟩
          rw [← hsession]
          exact hcharged

/-! Runs. -/

/-- What holds in every state of a run. -/
structure Good (s : State) : Prop where
  one_job : (s.jobs.map Prod.fst).Nodup
  paid : s.takes = s.starts
  live : ∀ entry ∈ s.jobs,
    ∃ n, Follows s.scene.store.worlds s.starts entry.1 entry.2 n
  ended : ∀ e ∈ s.ended, EndedWell s.scene.store.worlds s.starts e
  serials : (s.jobs.map (fun entry => entry.2.serial) ++
    s.ended.map (fun e => e.job.serial)).Perm (List.range s.starts.length)

theorem Good.same {s s' : State} (hg : Good s) (hsame : SameJobs s s')
    (hstays : Stays s.scene.store.worlds s'.scene.store.worlds) : Good s' := by
  obtain ⟨hjobs, htakes, hstarts, hended⟩ := hsame
  constructor
  · rw [hjobs]
    exact hg.one_job
  · rw [htakes, hstarts]
    exact hg.paid
  · intro entry hentry
    rw [hjobs] at hentry
    obtain ⟨n, hfollows⟩ := hg.live entry hentry
    rw [hstarts]
    exact ⟨n, hfollows.stays hstays⟩
  · intro e he
    rw [hended] at he
    rw [hstarts]
    exact (hg.ended e he).stays hstays
  · rw [hjobs, hended, hstarts]
    exact hg.serials

theorem Good.starts {env : Env} {peer : Nat} {ms : Int} {s s' : State}
    (hg : Good s) (hstarts : Starts env peer ms s s')
    (hstays : Stays s.scene.store.worlds s'.scene.store.worlds) : Good s' := by
  obtain ⟨w, world, hworld, hjobs⟩ := hstarts.job
  constructor
  · rw [hjobs, List.map_cons, List.nodup_cons]
    refine ⟨?_, hg.one_job⟩
    intro hmem
    obtain ⟨entry, hentry, heq⟩ := List.mem_map.mp hmem
    have hidle := hstarts.idle
    simp only [hasActiveJob, List.any_eq_false, beq_iff_eq] at hidle
    exact hidle entry hentry heq
  · rw [hstarts.takes, hstarts.starts, hg.paid]
  · intro entry hentry
    rw [hjobs] at hentry
    rw [hstarts.starts]
    rcases List.mem_cons.mp hentry with rfl | hentry
    · refine ⟨world.blocks.length, ?_, ?_, rfl, Nat.zero_le _⟩
      · simp [newJob]
      · exact InWorld.stays ⟨w, world, rfl, hworld, rfl⟩ hstays
    · obtain ⟨n, hfollows⟩ := hg.live entry hentry
      exact ⟨n, (hfollows.stays hstays).more [peer]⟩
  · intro e he
    rw [hstarts.ended] at he
    rw [hstarts.starts]
    exact ((hg.ended e he).stays hstays).more [peer]
  · rw [hjobs, hstarts.ended, hstarts.starts, List.length_append,
      List.length_singleton, List.range_succ]
    exact (hg.serials.cons _).trans (List.perm_append_singleton _ _).symm

theorem good_cancelJob {s : State} (hg : Good s) (peer : Nat) :
    Good (cancelJob peer s) := by
  constructor
  · exact hg.one_job.sublist (List.filter_sublist.map _)
  · exact hg.paid
  · intro entry hentry
    exact hg.live entry (List.mem_of_mem_filter hentry)
  · intro e he
    rcases List.mem_append.mp he with he | he
    · obtain ⟨entry, hentry, rfl⟩ := List.mem_map.mp he
      obtain ⟨hmem, hpeer⟩ := List.mem_filter.mp hentry
      obtain ⟨n, hfollows⟩ := hg.live entry hmem
      rw [beq_iff_eq] at hpeer
      exact ⟨n, hpeer ▸ hfollows, fun h => by cases h⟩
    · exact hg.ended e he
  · refine List.Perm.trans ?_ hg.serials
    simp only [cancelJob, List.map_append, List.map_map, Function.comp_def]
    rw [← List.append_assoc, ← List.map_append]
    apply List.Perm.append_right
    apply List.Perm.map
    have hsplit := List.filter_append_perm (fun entry => entry.1 != peer) s.jobs
    simpa [bne] using hsplit

section Runs

variable {env : Env} {harvest : Harvest}

theorem good_tickJobs {s : State} (hg : Good s) (ms : Int) :
    Good (tickJobs env harvest ms s) := by
  have hspec := tickAll_spec env harvest ms hg.live
  unfold tickJobs
  generalize tickAll env harvest ms s.jobs s.scene = ticked at *
  constructor
  · exact hg.one_job.sublist hspec.peers
  · exact hg.paid
  · exact hspec.live
  · intro e he
    rcases List.mem_append.mp he with he | he
    · exact hspec.ended e he
    · exact (hg.ended e he).stays hspec.stays
  · rw [List.map_append, ← List.append_assoc]
    exact (hspec.serials.append_right _).trans hg.serials

theorem good_apply {s : State} (hg : Good s) (event : Event)
    (hstays : Stays s.scene.store.worlds
      (apply env harvest s event).scene.store.worlds) :
    Good (apply env harvest s event) := by
  cases event with
  | start peer ms =>
      rcases startJob_cases env peer ms s with hsame | hstarts
      · exact hg.same hsame hstays
      · exact hg.starts hstarts hstays
  | cancel peer => exact good_cancelJob hg peer
  | tick ms => exact good_tickJobs hg ms
  | rest scene process => exact hg.same ⟨rfl, rfl, rfl, rfl⟩ hstays

/-- Along a run the worlds stay loaded and of their size. -/
def WorldsStay (env : Env) (harvest : Harvest) (s : State) : List Event → Prop
  | [] => True
  | event :: events =>
      Stays s.scene.store.worlds (apply env harvest s event).scene.store.worlds ∧
        WorldsStay env harvest (apply env harvest s event) events

theorem good_run {s : State} (hg : Good s) {events : List Event}
    (hstay : WorldsStay env harvest s events) :
    Good (run env harvest s events) := by
  induction events generalizing s with
  | nil => exact hg
  | cons event events ih => exact ih (good_apply hg event hstay.1) hstay.2

theorem worldsStay_append {s : State} {before after : List Event} :
    WorldsStay env harvest s (before ++ after) ↔
      WorldsStay env harvest s before ∧
        WorldsStay env harvest (run env harvest s before) after := by
  induction before generalizing s with
  | nil => simp [WorldsStay, run]
  | cons event before ih =>
      simp only [List.cons_append, WorldsStay, ih, and_assoc]
      rfl

/-- No job has been started yet. -/
def fresh (scene : Scene) (process : Process) : State :=
  { scene := scene, process := process }

theorem good_fresh (scene : Scene) (process : Process) :
    Good (fresh scene process) := by
  constructor <;> simp [fresh]

/-- In a run during which the worlds stay, there is at most one job of a peer,
the cost has been taken once for each job and for nothing else, each job has
examined the first blocks of its world in order and once, and an erased job that
was not cancelled has examined all of them, if its owner was in the world. -/
theorem jobs_along_runs (env : Env) (harvest : Harvest) (scene : Scene)
    (process : Process) (events : List Event)
    (hstay : WorldsStay env harvest (fresh scene process) events) :
    (∀ before after, events = before ++ after →
      Good (run env harvest (fresh scene process) before)) ∧
    ∀ before peer ms after, events = before ++ .start peer ms :: after →
      SameJobs (run env harvest (fresh scene process) before)
        (run env harvest (fresh scene process) (before ++ [.start peer ms])) ∨
      Starts env peer ms (run env harvest (fresh scene process) before)
        (run env harvest (fresh scene process) (before ++ [.start peer ms])) := by
  constructor
  · rintro before after rfl
    exact good_run (good_fresh scene process) (worldsStay_append.mp hstay).1
  · intro before peer ms after _
    have hstep := startJob_cases env peer ms
      (run env harvest (fresh scene process) before)
    simpa [run, apply] using hstep

end Runs

/-! A farm of two blocks. -/

/-- The harvest takes the tree off its block. -/
def clearTree : Harvest where
  run _ w index _ scene := { scene with store := { scene.store with
    worlds := scene.store.worlds.modify w fun world => { world with
      blocks := world.blocks.modify index fun block => { block with fg := 0 } } } }
  stays _ w index _ scene := by
    have hsame : (scene.store.worlds.modify w fun world => { world with
        blocks := world.blocks.modify index fun block =>
          { block with fg := 0 } }).map shape = scene.store.worlds.map shape := by
      apply List.ext_getElem?
      intro i
      rw [List.getElem?_map, List.getElem?_modify, List.getElem?_map]
      by_cases hi : w = i
      · cases scene.store.worlds[i]? <;> simp [hi, shape]
      · simp [hi]
    exact ⟨[], by rw [List.append_nil, hsame]⟩

/-- Item 3 is a seed that is ripe at once. -/
def farmEnv : Env where
  items := ⟨300, fun id => if id = 3 then { blockType := .seed } else {}⟩

def farmer : Player :=
  { tankIDName := "ann", world := "FARM", inv := [(242, 5), (0, 0)] }

def farm (pl : Player) : Scene where
  peers peer := if peer = 0 then some pl else none
  store := { worlds :=
    [{ name := "FARM", ownerName := "Ann", blocks := [{}, { fg := 3 }] }] }

/-- One tick examines both blocks; the farmer has paid one lock. -/
theorem farm_is_harvested :
    let s := run farmEnv clearTree (fresh (farm farmer) { loaded := true })
      [.start 0 5000, .tick 5000]
    Good s ∧ s.jobs = [] ∧ s.ended.map (fun e => e.job.examined) = [[0, 1]] ∧
      (s.scene.peers 0).map Player.inv = some [(242, 4), (0, 0)] := by
  have hruns := jobs_along_runs farmEnv clearTree (farm farmer) { loaded := true }
    [.start 0 5000, .tick 5000]
    ⟨by decide +kernel, by decide +kernel, trivial⟩
  exact ⟨hruns.1 _ [] rfl, by decide +kernel, by decide +kernel, by decide +kernel⟩

/-- A job that is cancelled has examined nothing, with its owner in the world;
a farmer in infinite mode keeps the lock. -/
theorem cancelled_job_examines_nothing :
    let s := run farmEnv clearTree (fresh (farm farmer) { loaded := true })
      [.start 0 5000, .cancel 0]
    let t := run farmEnv clearTree
      (fresh (farm { farmer with infiniteMode := true }) { loaded := true })
      [.start 0 5000]
    s.starts = [0] ∧ s.jobs = [] ∧
      s.ended.map (fun e => (e.job.examined, e.owner.map Player.world)) =
        [([], some "FARM")] ∧
      t.starts = [0] ∧
      (t.scene.peers 0).map Player.inv = some [(242, 5), (0, 0)] := by
  decide +kernel

end PthtAutoHarvest

end NopyServer
