import Mathlib.Data.List.Infix

/-!
# Stuffing

A text may not hold certain items right behind a run of `limit` zeros. Such an item is sent with a
stuffed one in front of it, which the receiver takes out again (`unstuff_stuff`). Both count the zeros
of the run they are in, and a text in which the count never meets an item is one in which the item
does not stand behind a run (`clean_iff`).
-/

namespace Stuffing
set_option autoImplicit false

variable {α : Type} [DecidableEq α] (limit : Nat) (zero : α)

/-- The length of the run behind an item. -/
def next (n : Nat) (a : α) : Nat := if a = zero then min limit (n + 1) else 0

/-- The length of the run behind a text. -/
def after (n : Nat) (l : List α) : Nat := l.foldl (next limit zero) n

/-- The sender: `risky` items get `stuffed` in front of them. -/
def stuff (stuffed : α) (risky : α → Bool) : Nat → List α → List α
  | _, [] => []
  | n, a :: l =>
    if n = limit ∧ risky a = true then stuffed :: a :: stuff stuffed risky (next limit zero 0 a) l
    else a :: stuff stuffed risky (next limit zero n a) l

/-- The receiver. -/
def unstuff (stuffed : α) : Nat → List α → List α
  | _, [] => []
  | n, a :: l => if n = limit ∧ a = stuffed then unstuff stuffed 0 l else a :: unstuff stuffed (next limit zero n a) l

/-- The run never meets `r` when it is at the limit. -/
def Clean (r : α) : Nat → List α → Prop
  | _, [] => True
  | n, a :: l => ¬ (n = limit ∧ a = r) ∧ Clean r (next limit zero n a) l

/-- What is not to be in a text. -/
def marker (r : α) : List α := List.replicate limit zero ++ [r]

section Clean

variable {limit zero} {r : α}

/-- Behind a run, the marker needs all of it. -/
theorem marker_prefix_iff {m : Nat} (inside : m ≤ limit) {a : α} (ends : a ≠ zero) (l : List α) :
    marker limit zero r <+: List.replicate m zero ++ a :: l ↔ m = limit ∧ a = r := by
  obtain ⟨d, rfl⟩ := Nat.exists_eq_add_of_le inside
  rw [marker, List.replicate_add, List.append_assoc, List.prefix_append_right_inj]
  cases d with
  | zero => simp [List.cons_prefix_cons, eq_comm]
  | succ d =>
    rw [List.replicate_succ, List.cons_append, List.cons_prefix_cons]
    constructor
    · rintro ⟨same, -⟩
      exact absurd same.symm ends
    · rintro ⟨same, -⟩
      omega

/-- An item that ends a run is the end of a marker, or the markers are behind it. -/
theorem marker_infix_iff {n : Nat} (inside : n ≤ limit) {a : α} (ends : a ≠ zero) (l : List α) :
    marker limit zero r <:+: List.replicate n zero ++ a :: l ↔ (n = limit ∧ a = r) ∨ marker limit zero r <:+: l := by
  induction n with
  | zero =>
    rw [← marker_prefix_iff inside ends l]
    exact List.infix_cons_iff
  | succ n ih =>
    have here := marker_prefix_iff (r := r) inside ends l
    rw [List.replicate_succ, List.cons_append] at here ⊢
    rw [List.infix_cons_iff, here, ih (by omega)]
    constructor
    · rintro (now | ⟨same, -⟩ | later)
      · exact Or.inl now
      · omega
      · exact Or.inr later
    · rintro (now | later)
      · exact Or.inl now
      · exact Or.inr (Or.inr later)

/-- **A run meets no item exactly when no marker is in the text.** -/
theorem clean_iff (other : r ≠ zero) {n : Nat} (inside : n ≤ limit) (l : List α) :
    Clean limit zero r n l ↔ ¬ marker limit zero r <:+: List.replicate n zero ++ l := by
  induction l generalizing n with
  | nil =>
    refine ⟨fun _ within => ?_, fun _ => trivial⟩
    have member : r ∈ List.replicate n zero ++ [] := within.subset (by simp [marker])
    rw [List.append_nil] at member
    exact other (List.eq_of_mem_replicate member)
  | cons a l ih =>
    rw [Clean]
    by_cases same : a = zero
    · subst same
      have grows : List.replicate n a ++ a :: l = List.replicate (n + 1) a ++ l := by
        rw [List.replicate_succ', List.append_assoc, List.singleton_append]
      have never : ¬ (n = limit ∧ a = r) := fun both => other both.2.symm
      have run : next limit a n a = min limit (n + 1) := if_pos rfl
      rw [and_iff_right never, run, ih (Nat.min_le_left _ _), grows]
      obtain less | full := Nat.lt_or_eq_of_le inside
      · rw [Nat.min_eq_right (by omega)]
      · subst full
        have longer : marker n a r <:+: List.replicate (n + 1) a ++ l ↔ marker n a r <:+: List.replicate n a ++ l := by
          have start : ¬ marker n a r <+: a :: (List.replicate n a ++ l) := by
            intro here
            rw [← List.cons_append, ← List.replicate_succ, List.replicate_succ', List.append_assoc, marker,
              List.prefix_append_right_inj, List.singleton_append, List.cons_prefix_cons] at here
            exact other here.1
          rw [List.replicate_succ, List.cons_append, List.infix_cons_iff, or_iff_right start]
        rw [Nat.min_eq_left (by omega), longer]
    · have run : next limit zero n a = 0 := if_neg same
      rw [run, ih (Nat.zero_le _), marker_infix_iff inside same, not_or]
      rfl

end Clean

section Texts

variable {limit zero} {stuffed : α} {n : Nat}

theorem after_append (n : Nat) (l m : List α) : after limit zero n (l ++ m) = after limit zero (after limit zero n l) m :=
  List.foldl_append

theorem after_cons (n : Nat) (a : α) (l : List α) :
    after limit zero n (a :: l) = after limit zero (next limit zero n a) l := rfl

theorem clean_append {r : α} {l m : List α} :
    Clean limit zero r n (l ++ m) ↔ Clean limit zero r n l ∧ Clean limit zero r (after limit zero n l) m := by
  induction l generalizing n with
  | nil => exact (and_iff_right trivial).symm
  | cons a l ih => rw [List.cons_append, Clean, Clean, ih, and_assoc, after_cons]

/-- A run of zeros. -/
theorem after_replicate (m : Nat) : after limit zero n (List.replicate m zero) = if m = 0 then n else min limit (n + m) := by
  induction m generalizing n with
  | zero => rfl
  | succ m ih =>
    have one : next limit zero n zero = min limit (n + 1) := if_pos rfl
    rw [List.replicate_succ, after_cons, ih, one, if_neg (Nat.succ_ne_zero m)]
    split <;> omega

/-- The receiver takes nothing out of a clean text. -/
theorem unstuff_append {l : List α} (clean : Clean limit zero stuffed n l) (m : List α) :
    unstuff limit zero stuffed n (l ++ m) = l ++ unstuff limit zero stuffed (after limit zero n l) m := by
  induction l generalizing n with
  | nil => rfl
  | cons a l ih =>
    obtain ⟨kept, rest⟩ := clean
    rw [List.cons_append, unstuff, if_neg kept, ih rest, after_cons, List.cons_append]

/-- The receiver takes out what follows a run. -/
theorem unstuff_marked {l : List α} (clean : Clean limit zero stuffed n l) (full : after limit zero n l = limit) (m : List α) :
    unstuff limit zero stuffed n (l ++ stuffed :: m) = l ++ unstuff limit zero stuffed 0 m := by
  rw [unstuff_append clean, full, unstuff, if_pos ⟨rfl, rfl⟩]

variable {risky : α → Bool}

/-- The last item is sent as it is. -/
theorem getLast?_stuff (l : List α) : (stuff limit zero stuffed risky n l).getLast? = l.getLast? := by
  induction l generalizing n with
  | nil => rfl
  | cons a l ih =>
    rw [stuff]
    split <;> simp only [List.getLast?_cons, ih, Option.getD_some]

theorem after_ended {l : List α} {a : α} (last : l.getLast? = some a) (ends : a ≠ zero) : after limit zero n l = 0 := by
  obtain ⟨front, rfl⟩ := List.getLast?_eq_some_iff.1 last
  rw [after_append]
  exact if_neg ends

variable (positive : 0 < limit)
include positive

/-- **What was sent is received.** -/
theorem unstuff_stuff (own : risky stuffed = true) (l : List α) :
    unstuff limit zero stuffed n (stuff limit zero stuffed risky n l) = l := by
  have start : ¬ 0 = limit := by omega
  induction l generalizing n with
  | nil => rfl
  | cons a l ih =>
    rw [stuff]
    split
    · rename_i met
      have first : n = limit ∧ stuffed = stuffed := ⟨met.1, rfl⟩
      rw [unstuff, if_pos first, unstuff, if_neg (fun both => start both.1), ih]
    · rename_i safe
      have kept : ¬ (n = limit ∧ a = stuffed) := by
        rintro ⟨full, rfl⟩
        exact safe ⟨full, own⟩
      rw [unstuff, if_neg kept, ih]

/-- **A sent text is clean** of every risky item but the stuffed one. -/
theorem clean_stuff {r : α} (nonzero : stuffed ≠ zero) (danger : risky r = true) (other : stuffed ≠ r) (l : List α) :
    Clean limit zero r n (stuff limit zero stuffed risky n l) := by
  have start : ¬ 0 = limit := by omega
  induction l generalizing n with
  | nil => trivial
  | cons a l ih =>
    rw [stuff]
    split
    · have run : next limit zero n stuffed = 0 := if_neg nonzero
      refine ⟨fun both => other both.2, ?_⟩
      rw [run]
      exact ⟨fun both => start both.1, ih⟩
    · rename_i safe
      refine ⟨?_, ih⟩
      rintro ⟨full, rfl⟩
      exact safe ⟨full, danger⟩

end Texts

end Stuffing
