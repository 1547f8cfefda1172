/-
`find_world` against a plain search of the loaded worlds.  The index of names
goes stale when a world is taken out of the list and is keyed by the spelling
asked for; an entry is believed only after the world it points at has been
compared with the name.
-/
import NopyServer.WorldStoreNames

namespace NopyServer

namespace Store

/-- The loaded worlds have different names, also up to case. -/
def CaseDistinct (store : Store) : Prop := (store.names.map toLower).Nodup

/-- The first loaded world of a name up to case. -/
def linearSearch (name : String) (store : Store) : Option Nat :=
  store.worlds.findIdx? fun world => iequals world.name name

/-- The calls that use the index of names. -/
inductive Lookup where
  | push (world : World)
  | save (name : String) (erase toCaller : Bool)
  | find (name : String)

/-- What a call does to the worlds and the index. -/
def lookup (env : WorldEnv) : Lookup → Store → Store
  | .push world, store => store.worldsPushSafe world
  | .save name erase toCaller, store =>
      (saveWorld env name erase toCaller store).2
  | .find name, store => (findWorld name store).2

section Lookups

variable {env : WorldEnv} {start store : Store} {name : String}

/-- A world of the name is the one a search finds. -/
theorem linearSearch_of_get (hdistinct : store.CaseDistinct) {i : Nat}
    {world : World} (hget : store.worlds[i]? = some world)
    (hname : iequals world.name name = true) :
    store.linearSearch name = some i := by
  obtain ⟨hlt, hworld⟩ := List.getElem?_eq_some_iff.mp hget
  refine List.findIdx?_eq_some_iff_getElem.mpr ⟨hlt, hworld ▸ hname, ?_⟩
  intro j hji hother
  have hjlt : j < store.worlds.length := Nat.lt_trans hji hlt
  have hsame : toLower store.worlds[j].name = toLower store.worlds[i].name := by
    rw [hworld]
    exact (beq_iff_eq.mp hother).trans (beq_iff_eq.mp hname).symm
  have hij := List.pairwise_iff_getElem.mp hdistinct j i
    (by simpa [names] using hjlt) (by simpa [names] using hlt) hji
  exact hij (by simpa [names] using hsame)

/-- A search finds nothing exactly when no loaded world has the name. -/
theorem linearSearch_eq_none_iff :
    store.linearSearch name = none ↔
      ∀ world ∈ store.worlds, iequals world.name name = false :=
  List.findIdx?_eq_none_iff

/-- Whatever the index holds, `find_world` returns what a search returns. -/
theorem findWorld_eq_linearSearch (hdistinct : store.CaseDistinct)
    (hname : name ≠ "") :
    (findWorld name store).1 = store.linearSearch name := by
  unfold findWorld
  dsimp only
  rw [if_neg hname]
  split
  · next i hi =>
      obtain ⟨-, hfits⟩ := Option.filter_eq_some_iff.mp hi
      cases hget : store.worlds[i]? with
      | none =>
          rw [hget] at hfits
          cases hfits
      | some world =>
          rw [hget] at hfits
          exact (linearSearch_of_get hdistinct hget hfits).symm
  · rfl

/-- One call; a world is pushed only under a name that is not loaded. -/
inductive LookupStep (env : WorldEnv) : Store → Store → Prop where
  | push (store : Store) (world : World)
      (hfresh : toLower world.name ∉ store.names.map toLower) :
      LookupStep env store (lookup env (.push world) store)
  | save (store : Store) (name : String) (erase toCaller : Bool) :
      LookupStep env store (lookup env (.save name erase toCaller) store)
  | find (store : Store) (name : String) :
      LookupStep env store (lookup env (.find name) store)

theorem LookupStep.caseDistinct {next : Store} (hstep : LookupStep env store next)
    (hdistinct : store.CaseDistinct) : next.CaseDistinct := by
  unfold CaseDistinct at hdistinct ⊢
  cases hstep with
  | push world hfresh =>
      simp only [lookup, names_worldsPushSafe, List.map_append, List.map_cons,
        List.map_nil]
      rw [← List.concat_eq_append, List.nodup_concat]
      exact ⟨hfresh, hdistinct⟩
  | save name erase toCaller =>
      have hsub := (@names_saveWorld env name erase toCaller store).map
        toLower
      exact hdistinct.sublist hsub
  | find name =>
      simp only [lookup, names, findWorld_worlds]
      exact hdistinct

/-- After every run of pushes, evictions and searches, `find_world` returns for
every name but the empty one exactly what a search of the loaded worlds up to
case returns, and nothing exactly when no loaded world has the name; it changes
no world.  The empty name is never found. -/
theorem runs_find_linear (hstart : start.CaseDistinct)
    (hrun : Relation.ReflTransGen (LookupStep env) start store)
    (name : String) :
    (findWorld name store).2.worlds = store.worlds ∧
      (findWorld "" store).1 = none ∧
      (name ≠ "" →
        (findWorld name store).1 = store.linearSearch name ∧
        ((findWorld name store).1 = none ↔
          ∀ world ∈ store.worlds, iequals world.name name = false)) := by
  have hdistinct : store.CaseDistinct := by
    induction hrun with
    | refl => exact hstart
    | tail _ hlast ih => exact hlast.caseDistinct ih
  refine ⟨findWorld_worlds name store, rfl, fun hname => ?_⟩
  have hfind := findWorld_eq_linearSearch hdistinct hname
  refine ⟨hfind, ?_⟩
  rw [hfind]
  exact linearSearch_eq_none_iff

/-- Two worlds pushed, the first evicted: the index still says that the second
is at position one. -/
theorem find_after_eviction :
    let pushed := ((({} : Store).worldsPushSafe { name := "FIRST" }).worldsPushSafe
      { name := "SECOND" })
    let store := lookup plainWorldEnv (.save "FIRST" true false) pushed
    store.worldsIdx "SECOND" = some 1 ∧ store.worlds.length = 1 ∧
      (findWorld "second" store).1 = store.linearSearch "second" ∧
      (findWorld "second" store).1 = some 0 := by
  intro pushed store
  have hrun : Relation.ReflTransGen (LookupStep plainWorldEnv) {} store := by
    refine .tail (.tail (.single (.push {} { name := "FIRST" } ?_))
      (.push _ { name := "SECOND" } ?_)) (.save _ "FIRST" true false)
    · decide
    · decide
  have hstart : ({} : Store).CaseDistinct := List.nodup_nil
  obtain ⟨-, -, hfind⟩ := runs_find_linear hstart hrun "second"
  refine ⟨by decide, by decide, (hfind (by decide)).1, by decide⟩

/-- A loaded world without a name is there for a search only. -/
theorem nameless_world_not_found :
    ¬ ∀ (env : WorldEnv) (start store : Store), start.CaseDistinct →
      Relation.ReflTransGen (LookupStep env) start store →
      ∀ name, (findWorld name store).1 = store.linearSearch name := by
  intro hall
  have hrun : Relation.ReflTransGen (LookupStep plainWorldEnv) {}
      (({} : Store).worldsPushSafe {}) :=
    .single (.push {} {} List.not_mem_nil)
  have hfind := hall plainWorldEnv {} _ List.nodup_nil hrun ""
  exact absurd hfind (by decide)

end Lookups

end Store

end NopyServer
