import Mathlib.Data.List.Basic

/-!
# Loops with an early return

A loop over a list that ends when its body returns -1, with what the body has written by
then; otherwise it returns 1. So the state after a refusal is the one after the items in
front, with what the refused item itself left (`loop_refused_iff`).
-/

namespace EarlyReturn
set_option autoImplicit false

variable {ι σ : Type} (step : ι → σ → Int × σ)

def loop : List ι → σ → Int × σ
  | [], s => (1, s)
  | i :: is, s => if (step i s).1 = -1 then (-1, (step i s).2) else loop is (step i s).2

section Laws

variable {step} {i : ι} {is js : List ι} {s t : σ}

theorem loop_refused (refused : step i s = (-1, t)) : loop step (i :: is) s = (-1, t) := by
  rw [loop, refused, if_pos rfl]

theorem loop_accepted (accepted : (step i s).1 ≠ -1) : loop step (i :: is) s = loop step is (step i s).2 := by
  rw [loop, if_neg accepted]

theorem loop_result (step : ι → σ → Int × σ) (is : List ι) (s : σ) : (loop step is s).1 = -1 ∨ (loop step is s).1 = 1 := by
  induction is generalizing s with
  | nil => exact Or.inr rfl
  | cons i is ih =>
    rw [loop]
    split
    · exact Or.inl rfl
    · exact ih _

/-- What each turn keeps is kept, however far the loop gets. -/
theorem loop_keeps {P : σ → Prop} (keeps : ∀ i s, P s → P (step i s).2) (is : List ι) (start : P s) :
    P (loop step is s).2 := by
  induction is generalizing s with
  | nil => exact start
  | cons i is ih =>
    rw [loop]
    split
    · exact keeps i s start
    · exact ih (keeps i s start)

/-- A change of the state that no turn sees. -/
theorem loop_map {P : σ → Prop} {f : σ → σ} (keeps : ∀ i s, P s → P (step i s).2)
    (unseen : ∀ i s, P s → step i (f s) = ((step i s).1, f (step i s).2)) (is : List ι) (start : P s) :
    loop step is (f s) = ((loop step is s).1, f (loop step is s).2) := by
  induction is generalizing s with
  | nil => rfl
  | cons i is ih =>
    have turn := unseen i s start
    rw [loop, loop, turn]
    split
    · rfl
    · exact ih (keeps i s start)

theorem loop_append (is js : List ι) (s : σ) :
    loop step (is ++ js) s = if (loop step is s).1 = -1 then loop step is s else loop step js (loop step is s).2 := by
  induction is generalizing s with
  | nil =>
    have accepted : ¬ (1 : Int) = -1 := by decide
    exact (if_neg accepted).symm
  | cons i is ih =>
    rw [List.cons_append, loop, loop]
    split
    · exact (if_pos rfl).symm
    · exact ih _

/-- A refusal in front ends the whole loop. -/
theorem loop_append_refused (refused : (loop step is s).1 = -1) (js : List ι) :
    loop step (is ++ js) s = loop step is s := by
  rw [loop_append, if_pos refused]

theorem loop_append_accepted (accepted : loop step is s = (1, t)) (js : List ι) :
    loop step (is ++ js) s = loop step js t := by
  have one : ¬ (1 : Int) = -1 := by decide
  rw [loop_append, accepted, if_neg one]

theorem loop_append_accepted_iff :
    loop step (is ++ js) s = (1, t) ↔ ∃ before, loop step is s = (1, before) ∧ loop step js before = (1, t) := by
  constructor
  · intro accepted
    obtain refused | first := loop_result step is s
    · rw [loop_append_refused refused] at accepted
      rw [accepted] at refused
      cases refused
    · have whole : loop step is s = (1, (loop step is s).2) := Prod.ext first rfl
      rw [loop_append_accepted whole] at accepted
      exact ⟨_, whole, accepted⟩
  · rintro ⟨before, first, second⟩
    rw [loop_append_accepted first, second]

/-- An item that is stepped over wherever the loop comes to it makes no difference. -/
theorem loop_insert (skipped : ∀ before, loop step is s = (1, before) → step i before = (1, before)) (js : List ι) :
    loop step (is ++ i :: js) s = loop step (is ++ js) s := by
  obtain refused | accepted := loop_result step is s
  · rw [loop_append_refused refused, loop_append_refused refused]
  · have whole : loop step is s = (1, (loop step is s).2) := Prod.ext accepted rfl
    have here := skipped _ whole
    have number : (1 : Int) ≠ -1 := by decide
    have one : (step i (loop step is s).2).1 ≠ -1 := by rwa [here]
    rw [loop_append_accepted whole, loop_append_accepted whole, loop_accepted one, here]

/-- **Refused loops.** A loop is refused at one item, with all in front accepted. -/
theorem loop_refused_iff :
    loop step is s = (-1, t) ↔
      ∃ front i rest before, is = front ++ i :: rest ∧ loop step front s = (1, before) ∧ step i before = (-1, t) := by
  constructor
  · intro refused
    induction is generalizing s with
    | nil => cases refused
    | cons i is ih =>
      rw [loop] at refused
      split at refused
      · rename_i here
        obtain ⟨-, left⟩ := Prod.mk.inj refused
        exact ⟨[], i, is, s, rfl, rfl, Prod.ext here left⟩
      · rename_i taken
        obtain ⟨front, j, rest, before, place, accepted, there⟩ := ih refused
        refine ⟨i :: front, j, rest, before, congrArg (i :: ·) place, ?_, there⟩
        rw [loop_accepted taken]
        exact accepted
  · rintro ⟨front, i, rest, before, rfl, accepted, there⟩
    rw [loop_append_accepted accepted]
    exact loop_refused there

end Laws

end EarlyReturn
