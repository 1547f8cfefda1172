/-
Flood fill over a graph given by the neighbours of each node.  The queue grows
while it is worked off; a node is marked when it is put in, so that it is put in
once, and the nodes the fill starts from need not be marked.  A test on the marks
and on the node at hand can end the fill.

A fill that nothing ends marks exactly what can be reached past unmarked nodes,
a fill that ends at a goal ends exactly when a goal can be reached, and a budget
for every node and the first queue is always enough.  A limit on the marks that
is tested before a node is worked off is kept exactly when some number of nodes
meets it, or the fill ends below it.
-/
import Mathlib.Data.Finset.Card
import Mathlib.Logic.Relation

namespace FloodFill

open Relation

universe u

variable {T : Type u} [DecidableEq T]

/-- Put a node into the queue and mark it, unless it is marked. -/
def push (state : List T × List T) (node : T) : List T × List T :=
  if node ∈ state.2 then state else (state.1 ++ [node], state.2 ++ [node])

/-- Put the neighbours of a node into the queue. -/
def expand (next : T → List T) (node : T) (rest marked : List T) : List T × List T :=
  (next node).foldl push (rest, marked)

/-- Work the queue off.  The result says whether the test ended the fill, and
what is marked; there is none when the budget runs out. -/
def fill (next : T → List T) (stop : List T → T → Bool) :
    Nat → List T → List T → Option (Bool × List T)
  | _, [], marked => some (false, marked)
  | 0, _ :: _, _ => none
  | budget + 1, node :: rest, marked =>
      if stop marked node = true then some (true, marked)
      else
        let state := expand next node rest marked
        fill next stop budget state.1 state.2

variable {next : T → List T} {stop : List T → T → Bool} {pending marked rest : List T}
  {node : T} {budget : Nat}

/-- The nodes that `expand` puts into the queue. -/
structure Fresh (candidates marked fresh : List T) : Prop where
  nodup : fresh.Nodup
  mem : ∀ t, t ∈ fresh ↔ t ∈ candidates ∧ t ∉ marked
  length : fresh.length ≤ candidates.length

theorem foldl_push (candidates rest marked : List T) :
    ∃ fresh, candidates.foldl push (rest, marked) = (rest ++ fresh, marked ++ fresh) ∧
      Fresh candidates marked fresh := by
  induction candidates generalizing rest marked with
  | nil =>
      exact ⟨[], by simp, List.nodup_nil, by simp, le_refl _⟩
  | cons head tail ih =>
      rw [List.foldl_cons]
      by_cases hmarked : head ∈ marked
      · obtain ⟨fresh, heq, hfresh⟩ := ih rest marked
        refine ⟨fresh, ?_, hfresh.nodup, fun t => ?_, ?_⟩
        · rw [push, if_pos hmarked]
          exact heq
        · rw [hfresh.mem, List.mem_cons]
          constructor
          · rintro ⟨ht, hnot⟩
            exact ⟨Or.inr ht, hnot⟩
          · rintro ⟨rfl | ht, hnot⟩
            · exact absurd hmarked hnot
            · exact ⟨ht, hnot⟩
        · exact hfresh.length.trans (Nat.le_succ _)
      · obtain ⟨fresh, heq, hfresh⟩ := ih (rest ++ [head]) (marked ++ [head])
        refine ⟨head :: fresh, ?_, ?_, fun t => ?_, ?_⟩
        · rw [push, if_neg hmarked]
          simpa using heq
        · refine List.nodup_cons.mpr ⟨fun hmem => ?_, hfresh.nodup⟩
          exact ((hfresh.mem head).mp hmem).2 (by simp)
        · rw [List.mem_cons, List.mem_cons, hfresh.mem, List.mem_append,
            List.mem_singleton]
          constructor
          · rintro (rfl | ⟨ht, hnot⟩)
            · exact ⟨Or.inl rfl, hmarked⟩
            · exact ⟨Or.inr ht, fun h => hnot (Or.inl h)⟩
          · rintro ⟨rfl | ht, hnot⟩
            · exact Or.inl rfl
            · by_cases hhead : t = head
              · exact Or.inl hhead
              · exact Or.inr ⟨ht, not_or_intro hnot hhead⟩
        · simpa using hfresh.length

theorem expand_eq (next : T → List T) (node : T) (rest marked : List T) :
    ∃ fresh, expand next node rest marked = (rest ++ fresh, marked ++ fresh) ∧
      Fresh (next node) marked fresh :=
  foldl_push (next node) rest marked

section Reaching

/-- A step to an unmarked neighbour. -/
def Step (next : T → List T) (marked : List T) (s t : T) : Prop :=
  t ∈ next s ∧ t ∉ marked

/-- What can be reached past unmarked nodes. -/
def Reach (next : T → List T) (marked : List T) : T → T → Prop :=
  ReflTransGen (Step next marked)

omit [DecidableEq T] in
theorem Reach.of_append {fresh : List T} {s t : T}
    (h : Reach next (marked ++ fresh) s t) : Reach next marked s t :=
  ReflTransGen.mono (fun _ _ hstep =>
    ⟨hstep.1, fun hmem => hstep.2 (List.mem_append_left fresh hmem)⟩) _ _ h

/-- A way past unmarked nodes stays one after new marks, from its start or from the
last newly marked node on it. -/
theorem Reach.append {fresh : List T} {s t : T} (h : Reach next marked s t) :
    Reach next (marked ++ fresh) s t ∨
      ∃ u ∈ fresh, Reach next (marked ++ fresh) u t := by
  induction h using ReflTransGen.head_induction_on with
  | refl => exact Or.inl ReflTransGen.refl
  | @head s u hstep _ ih =>
      rcases ih with hreach | hfresh
      · by_cases hu : u ∈ fresh
        · exact Or.inr ⟨u, hu, hreach⟩
        · refine Or.inl (ReflTransGen.head ⟨hstep.1, fun hmem => ?_⟩ hreach)
          rcases List.mem_append.mp hmem with h | h
          · exact hstep.2 h
          · exact hu h
      · exact Or.inr hfresh

/-- Working a node off changes nothing in what the queue reaches, apart from the
node itself. -/
theorem reach_expand {fresh : List T} (hfresh : Fresh (next node) marked fresh) {t : T}
    (hne : t ≠ node) :
    (∃ s ∈ node :: rest, Reach next marked s t) ↔
      ∃ s ∈ rest ++ fresh, Reach next (marked ++ fresh) s t := by
  constructor
  · rintro ⟨s, hs, hreach⟩
    rcases List.mem_cons.mp hs with rfl | hs
    · -- the way leaves the node at once, to a node that is fresh now
      rcases hreach.cases_head with heq | ⟨u, hstep, hrest⟩
      · exact absurd heq.symm hne
      · have hu : u ∈ fresh := (hfresh.mem u).mpr hstep
        rcases Reach.append hrest with h | ⟨v, hv, h⟩
        · exact ⟨u, List.mem_append_right rest hu, h⟩
        · exact ⟨v, List.mem_append_right rest hv, h⟩
    · rcases Reach.append hreach with h | ⟨v, hv, h⟩
      · exact ⟨s, List.mem_append_left fresh hs, h⟩
      · exact ⟨v, List.mem_append_right rest hv, h⟩
  · rintro ⟨s, hs, hreach⟩
    rcases List.mem_append.mp hs with h | h
    · exact ⟨s, List.mem_cons_of_mem node h, hreach.of_append⟩
    · have hstep : Step next marked node s := (hfresh.mem s).mp h
      exact ⟨node, List.mem_cons_self, ReflTransGen.head hstep hreach.of_append⟩

/-- A fill that looks for a goal finds one exactly when it can be reached. -/
theorem fill_found_iff (goal : T → Bool) {found : Bool} {last : List T}
    (hfill : fill next (fun _ node => goal node) budget pending marked =
      some (found, last)) :
    found = true ↔ ∃ t, goal t = true ∧ ∃ s ∈ pending, Reach next marked s t := by
  induction budget generalizing pending marked with
  | zero =>
      cases pending with
      | nil =>
          cases hfill
          simp
      | cons node rest => cases hfill
  | succ budget ih =>
      cases pending with
      | nil =>
          cases hfill
          simp
      | cons node rest =>
          unfold fill at hfill
          split at hfill
          next hgoal =>
            cases hfill
            exact iff_of_true rfl
              ⟨node, hgoal, node, List.mem_cons_self, ReflTransGen.refl⟩
          next hgoal =>
            obtain ⟨fresh, heq, hfresh⟩ := expand_eq next node rest marked
            rw [heq] at hfill
            rw [ih hfill]
            refine exists_congr fun t => and_congr_right fun ht => ?_
            exact (reach_expand hfresh fun h => hgoal (h ▸ ht)).symm

/-- What the queue reaches in at least one step, after a node is worked off. -/
theorem marks_expand {fresh : List T} (hfresh : Fresh (next node) marked fresh) (t : T) :
    (∃ s ∈ node :: rest, ∃ u, Step next marked s u ∧ Reach next marked u t) ↔
      t ∈ fresh ∨ ∃ s ∈ rest ++ fresh, ∃ u,
        Step next (marked ++ fresh) s u ∧ Reach next (marked ++ fresh) u t := by
  -- a way from a fresh node ends there or goes on from the queue
  have hfrom : ∀ v ∈ fresh, Reach next (marked ++ fresh) v t →
      t ∈ fresh ∨ ∃ s ∈ rest ++ fresh, ∃ u,
        Step next (marked ++ fresh) s u ∧ Reach next (marked ++ fresh) u t := by
    intro v hv hreach
    rcases hreach.cases_head with rfl | ⟨u, hstep, hrest⟩
    · exact Or.inl hv
    · exact Or.inr ⟨v, List.mem_append_right rest hv, u, hstep, hrest⟩
  have hold : ∀ u, Reach next marked u t →
      (∃ s ∈ rest ++ fresh, Step next (marked ++ fresh) s u) ∨ u ∈ fresh →
        t ∈ fresh ∨ ∃ s ∈ rest ++ fresh, ∃ u,
          Step next (marked ++ fresh) s u ∧ Reach next (marked ++ fresh) u t := by
    intro u hreach hu
    rcases Reach.append hreach with h | ⟨v, hv, h⟩
    · rcases hu with ⟨s, hs, hstep⟩ | hu
      · exact Or.inr ⟨s, hs, u, hstep, h⟩
      · exact hfrom u hu h
    · exact hfrom v hv h
  constructor
  · rintro ⟨s, hs, u, hstep, hreach⟩
    by_cases hu : u ∈ fresh
    · exact hold u hreach (Or.inr hu)
    · rcases List.mem_cons.mp hs with rfl | hs
      · exact absurd ((hfresh.mem u).mpr hstep) hu
      · refine hold u hreach (Or.inl ⟨s, List.mem_append_left fresh hs, hstep.1, ?_⟩)
        intro hmem
        rcases List.mem_append.mp hmem with h | h
        · exact hstep.2 h
        · exact hu h
  · rintro (ht | ⟨s, hs, u, hstep, hreach⟩)
    · exact ⟨node, List.mem_cons_self, t, (hfresh.mem t).mp ht, ReflTransGen.refl⟩
    · have hback : Step next marked s u :=
        ⟨hstep.1, fun hmem => hstep.2 (List.mem_append_left fresh hmem)⟩
      rcases List.mem_append.mp hs with h | h
      · exact ⟨s, List.mem_cons_of_mem node h, u, hback, hreach.of_append⟩
      · exact ⟨node, List.mem_cons_self, s, (hfresh.mem s).mp h,
          ReflTransGen.head hback hreach.of_append⟩

/-- A fill that nothing ends marks what the queue reaches in at least one step. -/
theorem mem_fill {found : Bool} {last : List T}
    (hfill : fill next (fun _ _ => false) budget pending marked = some (found, last))
    (t : T) :
    t ∈ last ↔ t ∈ marked ∨
      ∃ s ∈ pending, ∃ u, Step next marked s u ∧ Reach next marked u t := by
  induction budget generalizing pending marked with
  | zero =>
      cases pending with
      | nil =>
          cases hfill
          simp
      | cons node rest => cases hfill
  | succ budget ih =>
      cases pending with
      | nil =>
          cases hfill
          simp
      | cons node rest =>
          unfold fill at hfill
          rw [if_neg Bool.false_ne_true] at hfill
          obtain ⟨fresh, heq, hfresh⟩ := expand_eq next node rest marked
          rw [heq] at hfill
          rw [ih hfill, marks_expand hfresh, List.mem_append, or_assoc]

end Reaching

section Running

/-- The invariant rule, for the queue and the marks. -/
theorem fill_invariant (Inv : List T → List T → Prop)
    (hstep : ∀ node rest marked fresh, Inv (node :: rest) marked →
      stop marked node = false → Fresh (next node) marked fresh →
        Inv (rest ++ fresh) (marked ++ fresh))
    {found : Bool} {last : List T} (hstart : Inv pending marked)
    (hfill : fill next stop budget pending marked = some (found, last)) :
    ∃ left, Inv left last := by
  induction budget generalizing pending marked with
  | zero =>
      cases pending with
      | nil =>
          cases hfill
          exact ⟨[], hstart⟩
      | cons node rest => cases hfill
  | succ budget ih =>
      cases pending with
      | nil =>
          cases hfill
          exact ⟨[], hstart⟩
      | cons node rest =>
          unfold fill at hfill
          split at hfill
          next =>
            cases hfill
            exact ⟨node :: rest, hstart⟩
          next hstop =>
            obtain ⟨fresh, heq, hfresh⟩ := expand_eq next node rest marked
            rw [heq] at hfill
            rw [Bool.not_eq_true] at hstop
            exact ih (hstep node rest marked fresh hstart hstop hfresh) hfill

/-- No node is marked twice. -/
theorem fill_nodup {found : Bool} {last : List T} (hmarked : marked.Nodup)
    (hfill : fill next stop budget pending marked = some (found, last)) :
    last.Nodup := by
  obtain ⟨-, hlast⟩ := fill_invariant (fun _ marked => marked.Nodup)
    (fun node rest marked fresh hnodup _ hfresh =>
      List.nodup_append'.mpr ⟨hnodup, hfresh.nodup, fun t ht hmem =>
        ((hfresh.mem t).mp hmem).2 ht⟩) hmarked hfill
  exact hlast

/-- The budget is enough where it covers the queue and the nodes that are not
marked yet. -/
theorem fill_some (nodes : Finset T)
    (hnext : ∀ node ∈ nodes, ∀ t ∈ next node, t ∈ nodes)
    (hpending : ∀ t ∈ pending, t ∈ nodes)
    (hbudget : pending.length + (nodes \ marked.toFinset).card ≤ budget) :
    ∃ result, fill next stop budget pending marked = some result := by
  induction budget generalizing pending marked with
  | zero =>
      cases pending with
      | nil => exact ⟨_, rfl⟩
      | cons node rest => simp at hbudget
  | succ budget ih =>
      cases pending with
      | nil => exact ⟨_, rfl⟩
      | cons node rest =>
          unfold fill
          split
          next => exact ⟨_, rfl⟩
          next =>
            obtain ⟨fresh, heq, hfresh⟩ := expand_eq next node rest marked
            have hclosed : ∀ t ∈ fresh, t ∈ nodes := fun t ht =>
              hnext node (hpending node List.mem_cons_self) t ((hfresh.mem t).mp ht).1
            rw [heq]
            apply ih
            · intro t ht
              rcases List.mem_append.mp ht with h | h
              · exact hpending t (List.mem_cons_of_mem node h)
              · exact hclosed t h
            · -- every fresh node was unmarked and is marked now
              have hsub : fresh.toFinset ⊆ nodes \ marked.toFinset := by
                intro t ht
                have hmem := List.mem_toFinset.mp ht
                simp [hclosed t hmem, ((hfresh.mem t).mp hmem).2]
              have hcard := Finset.card_sdiff_add_card_eq_card hsub
              have hsplit : nodes \ (marked ++ fresh).toFinset =
                  (nodes \ marked.toFinset) \ fresh.toFinset := by
                rw [List.toFinset_append, sdiff_sdiff_left]
                rfl
              rw [List.toFinset_card_of_nodup hfresh.nodup] at hcard
              rw [hsplit, List.length_append]
              simp only [List.length_cons] at hbudget
              omega

end Running

section Limit

/-- The queue and the marks after so many nodes. -/
def worked (next : T → List T) : Nat → List T × List T → List T × List T
  | 0, state => state
  | _ + 1, ([], marked) => ([], marked)
  | k + 1, (node :: rest, marked) => worked next k (expand next node rest marked)

@[simp] theorem worked_nil (k : Nat) (marked : List T) :
    worked next k ([], marked) = ([], marked) := by
  cases k with
  | zero => rfl
  | succ k => rfl

theorem worked_add (j k : Nat) (state : List T × List T) :
    worked next (j + k) state = worked next k (worked next j state) := by
  induction j generalizing state with
  | zero => rw [Nat.zero_add, worked]
  | succ j ih =>
      obtain ⟨pending, marked⟩ := state
      cases pending with
      | nil => simp
      | cons node rest =>
          rw [Nat.succ_add]
          exact ih (expand next node rest marked)

theorem length_le_worked (k : Nat) (state : List T × List T) :
    state.2.length ≤ (worked next k state).2.length := by
  induction k generalizing state with
  | zero => exact le_refl _
  | succ k ih =>
      obtain ⟨pending, marked⟩ := state
      cases pending with
      | nil => exact le_refl _
      | cons node rest =>
          obtain ⟨fresh, heq, -⟩ := expand_eq next node rest marked
          refine le_trans ?_ (ih (expand next node rest marked))
          rw [heq, List.length_append]
          exact Nat.le_add_right _ _

theorem worked_length_mono {j k : Nat} (hle : j ≤ k) (state : List T × List T) :
    (worked next j state).2.length ≤ (worked next k state).2.length := by
  obtain ⟨d, rfl⟩ := Nat.exists_eq_add_of_le hle
  rw [worked_add]
  exact length_le_worked d _

/-- A fill with a limit works nodes off until the limit is met. -/
theorem fill_worked {limit : Nat} {found : Bool} {last : List T}
    (hfill : fill next (fun marked _ => decide (limit ≤ marked.length)) budget pending
      marked = some (found, last)) :
    ∃ k, (worked next k (pending, marked)).2 = last ∧
      (∀ j < k, (worked next j (pending, marked)).2.length < limit) ∧
      ((worked next k (pending, marked)).1 = [] ∨ limit ≤ last.length) := by
  induction budget generalizing pending marked with
  | zero =>
      cases pending with
      | nil =>
          cases hfill
          exact ⟨0, rfl, fun j hj => absurd hj (Nat.not_lt_zero j), Or.inl rfl⟩
      | cons node rest => cases hfill
  | succ budget ih =>
      cases pending with
      | nil =>
          cases hfill
          exact ⟨0, rfl, fun j hj => absurd hj (Nat.not_lt_zero j), Or.inl rfl⟩
      | cons node rest =>
          unfold fill at hfill
          split at hfill
          next hfull =>
            cases hfill
            exact ⟨0, rfl, fun j hj => absurd hj (Nat.not_lt_zero j),
              Or.inr (of_decide_eq_true hfull)⟩
          next hroom =>
            obtain ⟨k, hlast, hbefore, hended⟩ := ih hfill
            refine ⟨k + 1, hlast, fun j hj => ?_, hended⟩
            cases j with
            | zero => exact Nat.lt_of_not_le fun h => hroom (decide_eq_true h)
            | succ j => exact hbefore j (Nat.lt_of_succ_lt_succ hj)

/-- When the limit is kept. -/
theorem fill_length_le_iff {limit : Nat} {found : Bool} {last : List T}
    (hfill : fill next (fun marked _ => decide (limit ≤ marked.length)) budget pending
      marked = some (found, last)) :
    last.length ≤ limit ↔
      (∃ k, (worked next k (pending, marked)).2.length = limit) ∨
        ∀ k, (worked next k (pending, marked)).2.length ≤ limit := by
  obtain ⟨k, rfl, hbefore, hended⟩ := fill_worked hfill
  constructor
  · intro hle
    rcases hended with hempty | hfull
    · refine Or.inr fun j => ?_
      rcases Nat.lt_or_ge j k with hj | hj
      · exact Nat.le_of_lt (hbefore j hj)
      · -- nothing happens after the end
        obtain ⟨d, rfl⟩ := Nat.exists_eq_add_of_le hj
        have hstays : worked next (k + d) (pending, marked) =
            worked next k (pending, marked) := by
          rw [worked_add, ← Prod.mk.eta (p := worked next k (pending, marked)), hempty,
            worked_nil]
        rw [hstays]
        exact hle
    · exact Or.inl ⟨k, Nat.le_antisymm hle hfull⟩
  · rintro (⟨j, hj⟩ | hall)
    · have hkj : k ≤ j := Nat.le_of_not_lt fun h => by
        have hlt := hbefore j h
        omega
      exact (worked_length_mono hkj _).trans (Nat.le_of_eq hj)
    · exact hall k

end Limit

end FloodFill
