/-
The names of the loaded worlds.  `create_world` pushes whatever is loaded
already, and `get_world` pushes a second time what it had to create for a file
it could not use; apart from these calls no name is ever loaded twice.
-/
import NopyServer.WorldStore

namespace NopyServer

namespace Store

/-- The names of the loaded worlds. -/
def names (store : Store) : List String := store.worlds.map World.name

/-- A file from which a world with at least one row can be read. -/
def Usable (env : WorldEnv) (name : String) (file : Option Json) : Prop :=
  ∃ json world, file = some json ∧ readWorld env.items name json = some world ∧
    100 ≤ world.blocks.length

section Names

variable {env : WorldEnv} {store : Store} {name : String}

@[simp]
theorem names_worldsPushSafe (world : World) (store : Store) :
    (store.worldsPushSafe world).names = store.names ++ [world.name] := by
  simp [names, worldsPushSafe]

@[simp]
theorem names_createWorld (name : String) (s_ : Nat) (store : Store) :
    (createWorld env name s_ store).2.names = store.names ++ [name] :=
  names_worldsPushSafe _ _

@[simp]
theorem names_createSizedWorld (name : String) (width height : Int)
    (store : Store) :
    (createSizedWorld name width height store).2.names =
      store.names ++ [name] :=
  names_worldsPushSafe _ _

theorem bind_prop {α β : Type} {x : Option α} {f : α → Option β}
    {P : β → Prop} (h : ∀ a b, f a = some b → P b) (b : β)
    (hb : x >>= f = some b) : P b := by
  obtain ⟨a, -, ha⟩ := Option.bind_eq_some_iff.mp hb
  exact h a b ha

/-- A world is read under the name it is asked for. -/
theorem readWorld_name {items : Items} {json : Json} :
    ∀ world, readWorld items name json = some world → world.name = name := by
  unfold readWorld
  repeat refine bind_prop fun _ => ?_
  intro world hworld
  rw [← Option.some.inj hworld]

/-- Finding a world changes no world. -/
theorem findWorld_worlds (name : String) (store : Store) :
    (findWorld name store).2.worlds = store.worlds := by
  unfold findWorld
  dsimp only
  split
  · rfl
  · split <;> rfl

theorem names_evict (i : Nat) (world : World) (store : Store) :
    (store.evict i world).names.Sublist store.names :=
  (List.eraseIdx_sublist store.worlds i).map World.name

/-- A world that is put back under its name. -/
theorem names_set {i : Nat} {world : World} (hget : store.worlds[i]? = some world) :
    store.names.set i world.name = store.names := by
  obtain ⟨hlt, hsame⟩ := List.getElem?_eq_some_iff.mp hget
  have hi : i < store.names.length := by simpa [names] using hlt
  have hname : world.name = store.names[i] := by
    simp [names, hsame]
  rw [hname]
  exact List.set_getElem_self _

theorem names_writeOut {i : Nat} {world : World}
    (hget : store.worlds[i]? = some world) (toCaller : Bool) :
    (writeOut env name toCaller i world store).2.names = store.names := by
  simp only [names, writeOut, List.map_set]
  exact names_set hget

theorem names_dumpThrows {i : Nat} {world : World}
    (hget : store.worlds[i]? = some world) :
    (dumpThrows env name i world store).names = store.names := by
  simp only [names, dumpThrows, List.map_set]
  exact names_set hget

/-- Saving never loads a world. -/
theorem names_saveWorld (name : String) (erase toCaller : Bool)
    (store : Store) :
    (saveWorld env name erase toCaller store).2.names.Sublist
      store.names := by
  have hsame : (findWorld name store).2.names = store.names :=
    congrArg (List.map World.name) (findWorld_worlds name store)
  unfold saveWorld
  dsimp only
  split
  · exact hsame ▸ List.Sublist.refl _
  · next i world hfound =>
      obtain ⟨j, -, hget⟩ := Option.bind_eq_some_iff.mp hfound
      obtain ⟨found, hworld, hpair⟩ := Option.map_eq_some_iff.mp hget
      cases hpair
      split
      · exact hsame ▸ names_evict _ _ _
      split
      · exact hsame ▸ List.Sublist.refl _
      split
      · rw [← hsame, ← @names_dumpThrows env _ name _ _ hworld]
      · have hout := @names_writeOut env _ name _ _ hworld toCaller
        rw [← hsame, ← hout]
        split
        · exact names_evict _ _ _
        · exact List.Sublist.refl _

theorem find_loaded_eq_none (hname : name ∉ store.names) :
    (store.worlds.find? fun world => world.name == name) = none := by
  refine List.find?_eq_none.mpr fun world hworld hsame => hname ?_
  exact List.mem_map.mpr ⟨world, hworld, by simpa using hsame⟩

theorem getWorld_loaded (now : Int) (hname : name ∈ store.names) :
    (getWorld env now name store).2 = store := by
  obtain ⟨world, hworld, hsame⟩ := List.mem_map.mp hname
  unfold getWorld
  cases hfind : store.worlds.find? fun world => world.name == name with
  | some found => rfl
  | none =>
      have hnone := List.find?_eq_none.mp hfind world hworld
      exact absurd hsame (by simpa using hnone)

theorem names_getWorld_missing (now : Int) (hname : name ∉ store.names)
    (hfile : store.files name = none) :
    (getWorld env now name store).2.names = store.names ++ [name] := by
  unfold getWorld
  rw [find_loaded_eq_none hname]
  dsimp only
  rw [hfile]
  exact names_createWorld name 6000 store

theorem finishWorld_of_rows (now : Int) {world : World}
    (hrows : 100 ≤ world.blocks.length) :
    (finishWorld env now world store).1.name = world.name ∧
      (finishWorld env now world store).2 = store := by
  have hsize : world.blocks.length / 100 ≠ 0 := by omega
  unfold finishWorld
  dsimp only
  rw [if_neg hsize]
  exact ⟨rfl, rfl⟩

theorem names_getWorld_usable (now : Int) (hname : name ∉ store.names)
    {file : Option Json} (hfile : store.files name = some file)
    (husable : Usable env name file) :
    (getWorld env now name store).2.names = store.names ++ [name] := by
  obtain ⟨json, world, rfl, hread, hrows⟩ := husable
  obtain ⟨hsame, hstore⟩ := @finishWorld_of_rows env store now world hrows
  unfold getWorld
  rw [find_loaded_eq_none hname]
  dsimp only
  rw [hfile]
  dsimp only
  rw [Option.bind_some, hread]
  dsimp only
  rw [names_worldsPushSafe, hsame, hstore, readWorld_name world hread]

/-- A file that is there and cannot be used is pushed twice. -/
theorem names_getWorld_unusable (now : Int) (hname : name ∉ store.names)
    {file : Option Json} (hfile : store.files name = some file)
    (hunusable : ¬ Usable env name file) :
    (getWorld env now name store).2.names =
      store.names ++ [name] ++ [name] := by
  unfold getWorld
  rw [find_loaded_eq_none hname]
  dsimp only
  rw [hfile]
  dsimp only
  cases hread : file.bind (readWorld env.items name) with
  | none =>
      dsimp only
      rw [names_worldsPushSafe, names_createWorld]
      rfl
  | some world =>
      obtain ⟨json, rfl, hjson⟩ := Option.bind_eq_some_iff.mp hread
      have hsmall : world.blocks.length / 100 = 0 := by
        have hrows : ¬ 100 ≤ world.blocks.length := fun hrows =>
          hunusable ⟨json, world, rfl, hjson, hrows⟩
        omega
      have hsame := readWorld_name world hjson
      dsimp only [finishWorld]
      rw [names_worldsPushSafe, if_pos hsmall, names_createWorld, hsame]
      rfl

end Names

/-- The calls that load and save worlds. -/
inductive Call where
  | get (name : String) (now : Int)
  | create (name : String) (s_ : Nat)
  | createSized (name : String) (width height : Int)
  | save (name : String) (erase toCaller : Bool)

/-- What a call does to the worlds. -/
def call (env : WorldEnv) : Call → Store → Store
  | .get name now, store => (getWorld env now name store).2
  | .create name s_, store => (createWorld env name s_ store).2
  | .createSized name width height, store =>
      (createSizedWorld name width height store).2
  | .save name erase toCaller, store =>
      (saveWorld env name erase toCaller store).2

/-- A call that loads no name twice: a world is created under a new name, and
loaded when it is there, has no file or has a usable one. -/
def Safe (env : WorldEnv) (store : Store) : Call → Prop
  | .get name _ => name ∈ store.names ∨ store.files name = none ∨
      ∃ file, store.files name = some file ∧ Usable env name file
  | .create name _ => name ∉ store.names
  | .createSized name _ _ => name ∉ store.names
  | .save _ _ _ => True

section Runs

variable {env : WorldEnv} {start store : Store}

theorem nodup_append_name {name : String} :
    (store.names ++ [name]).Nodup ↔ store.names.Nodup ∧ name ∉ store.names := by
  rw [← List.concat_eq_append, List.nodup_concat]
  exact and_comm

/-- Among distinct names, a call leaves them distinct exactly when it is
safe. -/
theorem call_nodup_iff (hnodup : store.names.Nodup) (c : Call) :
    (call env c store).names.Nodup ↔ Safe env store c := by
  cases c with
  | get name now =>
      simp only [call, Safe]
      by_cases hname : name ∈ store.names
      · rw [getWorld_loaded now hname]
        simp [hnodup, hname]
      · cases hfile : store.files name with
        | none =>
            rw [names_getWorld_missing now hname hfile, nodup_append_name]
            simp [hnodup, hname]
        | some file =>
            by_cases husable : Usable env name file
            · rw [names_getWorld_usable now hname hfile husable,
                nodup_append_name]
              simp [hnodup, hname, husable]
            · rw [names_getWorld_unusable now hname hfile husable]
              simp [hname, husable, List.nodup_append]
  | create name s_ =>
      simp only [call, Safe, names_createWorld, nodup_append_name]
      simp [hnodup]
  | createSized name width height =>
      simp only [call, Safe, names_createSizedWorld, nodup_append_name]
      simp [hnodup]
  | save name erase toCaller =>
      simp only [call, Safe, iff_true]
      exact hnodup.sublist (names_saveWorld name erase toCaller store)

/-- One safe call. -/
inductive Step (env : WorldEnv) : Store → Store → Prop where
  | call (store : Store) (c : Call) (hsafe : Safe env store c) :
      Step env store (Store.call env c store)

/-- A safe `get_world` leaves a world of its name. -/
theorem mem_names_getWorld {name : String} {now : Int}
    (hsafe : Safe env store (.get name now)) :
    name ∈ (getWorld env now name store).2.names := by
  by_cases hname : name ∈ store.names
  · rw [getWorld_loaded now hname]
    exact hname
  · rcases hsafe with hloaded | hmissing | ⟨file, hfile, husable⟩
    · exact absurd hloaded hname
    · rw [names_getWorld_missing now hname hmissing]
      exact List.mem_append_right _ List.mem_cons_self
    · rw [names_getWorld_usable now hname hfile husable]
      exact List.mem_append_right _ List.mem_cons_self

/-- In every run of safe calls the names of the loaded worlds stay distinct,
and a safe `get_world` leaves exactly one world of its name loaded. -/
theorem runs_keep_names_distinct (hstart : start.names.Nodup)
    (hrun : Relation.ReflTransGen (Step env) start store) :
    store.names.Nodup ∧ ∀ (name : String) (now : Int),
      Safe env store (.get name now) →
      (getWorld env now name store).2.names.count name = 1 := by
  have hnodup : store.names.Nodup := by
    induction hrun with
    | refl => exact hstart
    | tail _ hlast ih =>
        cases hlast with
        | call c hsafe => exact (call_nodup_iff ih c).mpr hsafe
  refine ⟨hnodup, fun name now hsafe => ?_⟩
  have hnext : (getWorld env now name store).2.names.Nodup :=
    (call_nodup_iff hnodup (.get name now)).mpr hsafe
  exact List.count_eq_one_of_mem hnext (mem_names_getWorld hsafe)

/-- A world without a file, asked for twice. -/
theorem names_after_first_get :
    let store := call plainWorldEnv (.get "START" 0) {}
    store.names = ["START"] ∧ store.names.Nodup ∧
      (getWorld plainWorldEnv 1 "START" store).2.names.count "START" = 1 := by
  have hnames : (call plainWorldEnv (.get "START" 0) {}).names = ["START"] :=
    names_getWorld_missing 0 List.not_mem_nil rfl
  have hsafe : Safe plainWorldEnv {} (.get "START" 0) := Or.inr (Or.inl rfl)
  obtain ⟨hnodup, hget⟩ := @runs_keep_names_distinct plainWorldEnv {} _
    List.nodup_nil (Relation.ReflTransGen.single (Step.call {} _ hsafe))
  refine ⟨hnames, hnodup, hget "START" 1 (Or.inl ?_)⟩
  rw [hnames]
  exact List.mem_cons_self

/-- One file that is no JSON. -/
def brokenFile : Store :=
  { files := fun name => if name = "START" then some none else none }

/-- Loading the broken file leaves two worlds of its name. -/
theorem broken_file_loads_twice :
    ¬ ∀ (env : WorldEnv) (start store : Store), start.names.Nodup →
      Relation.ReflTransGen (fun before after => ∃ c,
        after = call env c before) start store →
      store.names.Nodup ∧ ∀ (name : String) (now : Int),
        (getWorld env now name store).2.names.count name = 1 := by
  intro hall
  have hunusable : ¬ Usable plainWorldEnv "START" none := by
    rintro ⟨json, world, hfile, -⟩
    cases hfile
  have hnames := @names_getWorld_unusable plainWorldEnv brokenFile "START" 0
    List.not_mem_nil none rfl hunusable
  obtain ⟨-, hcount⟩ := hall plainWorldEnv brokenFile brokenFile
    List.nodup_nil Relation.ReflTransGen.refl
  have hone := hcount "START" 0
  rw [hnames] at hone
  exact absurd hone (by decide)

end Runs

end Store

end NopyServer
