/-
Searching joined words.  A pattern without the separator is found in the first
of the words that contains it, and what stands behind it there is followed by
the rest of the text.
-/
import Mathlib.Data.List.Basic
import Mathlib.Data.Nat.Find

namespace TextSearch

variable {α : Type*} {pattern text front behind : List α}

/-- An occurrence in two words around a separator is in one of the words. -/
theorem occurrence_append {sep : α} (hsep : sep ∉ pattern) {word rest : List α}
    (heq : word ++ sep :: rest = front ++ pattern ++ behind) :
    (∃ tail, word = front ++ pattern ++ tail ∧ behind = tail ++ sep :: rest) ∨
      ∃ init, front = word ++ sep :: init ∧ rest = init ++ pattern ++ behind := by
  have hnot : ∀ before after : List α, pattern ≠ before ++ sep :: after := by
    rintro before after rfl
    exact hsep (List.mem_append_right _ (List.mem_cons_self ..))
  rcases List.append_eq_append_iff.mp heq with ⟨excess, hfront, hrest⟩ | ⟨tail, hword, hbehind⟩
  · cases excess with
    | nil =>
        rw [List.append_nil] at hfront
        exact Or.inl ⟨[], by rw [hfront, List.append_nil], hrest.symm⟩
    | cons c excess =>
        obtain ⟨rfl, hexcess⟩ := List.cons.inj hrest
        rcases List.append_eq_append_iff.mp hfront with ⟨init, -, hend⟩ | ⟨init, hinit, hend⟩
        · exact absurd hend (hnot init excess)
        · cases init with
          | nil => exact absurd hend.symm (hnot [] excess)
          | cons d init =>
              obtain ⟨rfl, hexcess'⟩ := List.cons.inj hend
              rw [hexcess, hexcess']
              exact Or.inr ⟨init, hinit, rfl⟩
  · exact Or.inl ⟨tail, hword, hbehind⟩

section Found

variable [BEq α] [LawfulBEq α]

/-- The first occurrence of a pattern, with what is before and behind it. -/
theorem dropInfix?_eq_some_iff : text.dropInfix? pattern = some (front, behind) ↔
    text = front ++ pattern ++ behind ∧
      ∀ front' behind', text = front' ++ pattern ++ behind' →
        front.length ≤ front'.length := by
  rw [List.dropInfix?_eq_some_iff]
  simp only [beq_iff_eq, exists_eq_right]
  constructor
  · rintro ⟨htext, hfirst⟩
    exact ⟨htext, fun front' behind' heq => hfirst front' pattern behind' heq rfl⟩
  · rintro ⟨htext, hfirst⟩
    refine ⟨htext, ?_⟩
    rintro front' _ behind' heq rfl
    exact hfirst front' behind' heq

theorem dropInfix?_eq_none_iff : text.dropInfix? pattern = none ↔ ¬ pattern <:+: text := by
  classical
  constructor
  · rintro hnone ⟨front, behind, htext⟩
    -- the occurrence with the shortest front would have been found
    have hex : ∃ n, ∃ front behind : List α, front.length = n ∧
        text = front ++ pattern ++ behind := ⟨_, front, behind, rfl, htext.symm⟩
    obtain ⟨first, after, hlength, hfirst⟩ := Nat.find_spec hex
    have hsome : text.dropInfix? pattern = some (first, after) := by
      apply dropInfix?_eq_some_iff.mpr
      refine ⟨hfirst, fun front' behind' heq => ?_⟩
      rw [hlength]
      exact Nat.find_min' hex ⟨front', behind', rfl, heq⟩
    rw [hnone] at hsome
    cases hsome
  · intro hinfix
    cases hfound : text.dropInfix? pattern with
    | none => rfl
    | some found =>
        have htext := (dropInfix?_eq_some_iff.mp hfound).1
        exact absurd ⟨found.1, found.2, htext.symm⟩ hinfix

/-- The first of two words around a separator is searched first. -/
theorem dropInfix?_append {sep : α} (hsep : sep ∉ pattern) (word rest : List α) :
    (word ++ sep :: rest).dropInfix? pattern =
      match word.dropInfix? pattern with
      | some (front, behind) => some (front, behind ++ sep :: rest)
      | none => (rest.dropInfix? pattern).map fun found =>
          (word ++ sep :: found.1, found.2) := by
  cases hword : word.dropInfix? pattern with
  | some found =>
      obtain ⟨hfound, hfirst⟩ := dropInfix?_eq_some_iff.mp hword
      apply dropInfix?_eq_some_iff.mpr
      refine ⟨by rw [hfound]; simp, fun front' behind' heq => ?_⟩
      rcases occurrence_append hsep heq with ⟨tail, htail, -⟩ | ⟨init, hinit, -⟩
      · exact hfirst front' tail htail
      · rw [hinit, hfound]
        simp only [List.length_append, List.length_cons]
        omega
  | none =>
      have hnone := dropInfix?_eq_none_iff.mp hword
      cases hrest : rest.dropInfix? pattern with
      | some found =>
          obtain ⟨hfound, hfirst⟩ := dropInfix?_eq_some_iff.mp hrest
          apply dropInfix?_eq_some_iff.mpr
          refine ⟨by rw [hfound]; simp, fun front' behind' heq => ?_⟩
          rcases occurrence_append hsep heq with ⟨tail, htail, -⟩ | ⟨init, hinit, hin⟩
          · exact absurd ⟨front', tail, htail.symm⟩ hnone
          · have hle := hfirst init behind' hin
            rw [hinit]
            simp only [List.length_append, List.length_cons]
            omega
      | none =>
          apply dropInfix?_eq_none_iff.mpr
          rintro ⟨front', behind', heq⟩
          rcases occurrence_append hsep heq.symm with ⟨tail, htail, -⟩ | ⟨init, -, hin⟩
          · exact hnone ⟨front', tail, htail.symm⟩
          · exact dropInfix?_eq_none_iff.mp hrest ⟨init, behind', hin.symm⟩

/-- A pattern without the separator is found in the first of the joined words
that contains it; what is behind it there is followed by the separator or by
nothing. -/
theorem dropInfix?_intercalate {sep : α} (hsep : sep ∉ pattern) (hne : pattern ≠ [])
    (words : List (List α)) :
    match words.findSome? (·.dropInfix? pattern) with
    | some (_, behind) => ∃ front rest, (rest = [] ∨ ∃ more, rest = sep :: more) ∧
        (List.intercalate [sep] words).dropInfix? pattern = some (front, behind ++ rest)
    | none => (List.intercalate [sep] words).dropInfix? pattern = none := by
  induction words with
  | nil =>
      simp only [List.findSome?_nil, List.intercalate_nil]
      apply dropInfix?_eq_none_iff.mpr
      rintro ⟨front, behind, heq⟩
      simp [hne] at heq
  | cons word words ih =>
      cases words with
      | nil =>
          rw [List.intercalate_singleton, List.findSome?_cons]
          cases word.dropInfix? pattern with
          | none => rfl
          | some found => exact ⟨found.1, [], Or.inl rfl, by rw [List.append_nil]⟩
      | cons next words =>
          rw [List.intercalate_cons_cons, List.append_assoc, List.singleton_append,
            dropInfix?_append hsep, List.findSome?_cons]
          cases word.dropInfix? pattern with
          | some found => exact ⟨found.1, _, Or.inr ⟨_, rfl⟩, rfl⟩
          | none =>
              generalize (next :: words).findSome? (·.dropInfix? pattern) = found at ih ⊢
              cases found with
              | none => rw [ih]; rfl
              | some found =>
                  obtain ⟨front, rest, hrest, hfound⟩ := ih
                  exact ⟨_, rest, hrest, by rw [hfound]; rfl⟩

end Found

end TextSearch
