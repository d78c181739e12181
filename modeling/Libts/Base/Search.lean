import Mathlib.Data.List.Infix

/-!
# Searching a pattern

`find` gives where the first occurrence of a pattern starts. That an occurrence is the first is said
of the text up to its last item: the pattern is not in there (`find_first`, `exists_of_find`).
-/

namespace Search
set_option autoImplicit false

variable {α : Type} [DecidableEq α]

/-- Where the first occurrence of `pat` starts. -/
def find (pat : List α) : List α → Option Nat
  | [] => if pat = [] then some 0 else none
  | a :: l => if pat.isPrefixOf (a :: l) then some 0 else (find pat l).map (· + 1)

variable {pat : List α} (filled : pat ≠ [])
include filled

theorem find_prefix (l : List α) : find pat (pat ++ l) = some 0 := by
  obtain ⟨a, rest, rfl⟩ := List.exists_cons_of_ne_nil filled
  exact if_pos (List.isPrefixOf_iff_prefix.2 (List.prefix_append _ _))

/-- An occurrence with none in front of it. -/
theorem find_first {l m : List α} (first : ¬ pat <:+: l ++ pat.dropLast) : find pat (l ++ (pat ++ m)) = some l.length := by
  induction l with
  | nil => exact find_prefix filled m
  | cons a l ih =>
    have later : ¬ pat <:+: l ++ pat.dropLast := fun inside => first (inside.trans (List.suffix_cons a _).isInfix)
    have other : ¬ pat <+: a :: (l ++ (pat ++ m)) := by
      intro here
      have text : (a :: (l ++ pat.dropLast)) <+: a :: (l ++ (pat ++ m)) := by
        rw [List.prefix_cons_inj, List.prefix_append_right_inj]
        exact (List.dropLast_prefix pat).trans (List.prefix_append pat m)
      have short : pat.length ≤ (a :: (l ++ pat.dropLast)).length := by
        simp only [List.length_cons, List.length_append, List.length_dropLast]
        omega
      exact first (List.prefix_of_prefix_length_le here text short).isInfix
    have negative : ¬ pat.isPrefixOf (a :: (l ++ (pat ++ m))) = true := fun here => other (List.isPrefixOf_iff_prefix.1 here)
    rw [List.cons_append, find, if_neg negative, ih later]
    rfl

theorem find_eq_none_iff {l : List α} : find pat l = none ↔ ¬ pat <:+: l := by
  induction l with
  | nil => simp [find, filled]
  | cons a l ih =>
    rw [find, List.infix_cons_iff, not_or, ← ih]
    by_cases here : pat.isPrefixOf (a :: l) = true
    · rw [if_pos here]
      simp [List.isPrefixOf_iff_prefix.1 here]
    · rw [if_neg here, Option.map_eq_none_iff]
      exact (and_iff_right fun before => here (List.isPrefixOf_iff_prefix.2 before)).symm

/-- What is found is an occurrence, and the first. -/
theorem exists_of_find {l : List α} {i : Nat} (found : find pat l = some i) :
    ∃ before behind, l = before ++ (pat ++ behind) ∧ before.length = i ∧ ¬ pat <:+: before ++ pat.dropLast := by
  induction l generalizing i with
  | nil =>
    rw [find, if_neg filled] at found
    cases found
  | cons a l ih =>
    rw [find] at found
    split at found
    · rename_i here
      cases found
      obtain ⟨behind, whole⟩ := List.isPrefixOf_iff_prefix.1 here
      refine ⟨[], behind, whole.symm, rfl, fun inside => ?_⟩
      have short := inside.length_le
      have positive := List.length_pos_iff.mpr filled
      rw [List.nil_append, List.length_dropLast] at short
      omega
    · rename_i other
      obtain ⟨j, later, rfl⟩ := Option.map_eq_some_iff.1 found
      obtain ⟨before, behind, rfl, rfl, first⟩ := ih later
      refine ⟨a :: before, behind, rfl, rfl, ?_⟩
      rw [List.cons_append, List.infix_cons_iff]
      rintro (here | inside)
      · apply other
        rw [List.isPrefixOf_iff_prefix]
        refine here.trans ?_
        rw [List.prefix_cons_inj, List.prefix_append_right_inj]
        exact (List.dropLast_prefix pat).trans (List.prefix_append pat behind)
      · exact first inside

/-- No occurrence is in front of the first. -/
theorem find_le {l m : List α} {i : Nat} (found : find pat (l ++ (pat ++ m)) = some i) : i ≤ l.length := by
  induction l generalizing i with
  | nil =>
    rw [List.nil_append, find_prefix filled] at found
    cases found
    exact Nat.zero_le _
  | cons a l ih =>
    rw [List.cons_append, find] at found
    split at found
    · cases found
      exact Nat.zero_le _
    · obtain ⟨j, later, rfl⟩ := Option.map_eq_some_iff.1 found
      exact Nat.succ_le_succ (ih later)

end Search
