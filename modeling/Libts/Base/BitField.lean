import Mathlib.Tactic.Ring
import Mathlib.Tactic.Positivity

/-!
# Words made of bit fields

A word is described by its fields, most significant first, each a value and a width.
`word` is the number such a description denotes when every value is cut to its width and
the fields are joined by bitwise or. Every field is read back by one shift and one mask
(`extract_word`), and descriptions concatenate (`word_append`).
-/

namespace BitField

/-- The number of bits the fields take together. -/
def width : List (Nat × Nat) → Nat
  | [] => 0
  | (_, b) :: fs => b + width fs

/-- The word with the given fields, the first one most significant. -/
def word : List (Nat × Nat) → Nat
  | [] => 0
  | (v, b) :: fs => (v % 2 ^ b) <<< width fs ||| word fs

theorem width_append (fs gs : List (Nat × Nat)) : width (fs ++ gs) = width fs + width gs := by
  induction fs with
  | nil => simp [width]
  | cons f fs ih => obtain ⟨v, b⟩ := f; simp only [List.cons_append, width, ih]; omega

/-- A field above a word that fits below it: the bitwise or is the sum. -/
theorem or_eq_add {k w : Nat} (v : Nat) (h : w < 2 ^ k) : v <<< k ||| w = v * 2 ^ k + w := by
  rw [Nat.shiftLeft_eq, Nat.mul_comm, Nat.two_pow_add_eq_or_of_lt h]

theorem word_lt (fs : List (Nat × Nat)) : word fs < 2 ^ width fs := by
  induction fs with
  | nil => simp [word, width]
  | cons f fs ih =>
    obtain ⟨v, b⟩ := f
    have field : v % 2 ^ b + 1 ≤ 2 ^ b := Nat.mod_lt _ (by positivity)
    rw [word, or_eq_add _ ih, width, pow_add]
    calc v % 2 ^ b * 2 ^ width fs + word fs
        < v % 2 ^ b * 2 ^ width fs + 2 ^ width fs := by omega
      _ = (v % 2 ^ b + 1) * 2 ^ width fs := by ring
      _ ≤ 2 ^ b * 2 ^ width fs := Nat.mul_le_mul_right _ field

theorem word_cons (v b : Nat) (fs : List (Nat × Nat)) :
    word ((v, b) :: fs) = v % 2 ^ b * 2 ^ width fs + word fs :=
  or_eq_add _ (word_lt fs)

theorem word_append (fs gs : List (Nat × Nat)) :
    word (fs ++ gs) = word fs * 2 ^ width gs + word gs := by
  induction fs with
  | nil => simp [word]
  | cons f fs ih =>
    obtain ⟨v, b⟩ := f
    rw [List.cons_append, word_cons, word_cons, ih, width_append, pow_add]
    ring

/-- Reading a field back: shift the fields after it away and mask its width. -/
theorem extract_word (fs : List (Nat × Nat)) (v b : Nat) (gs : List (Nat × Nat)) :
    word (fs ++ (v, b) :: gs) >>> width gs % 2 ^ b = v % 2 ^ b := by
  have low := word_lt gs
  rw [Nat.shiftRight_eq_div_pow, word_append, word_cons, width, pow_add]
  rw [show word fs * (2 ^ b * 2 ^ width gs) + (v % 2 ^ b * 2 ^ width gs + word gs) =
    2 ^ width gs * (word fs * 2 ^ b + v % 2 ^ b) + word gs by ring]
  rw [Nat.mul_add_div (by positivity), Nat.div_eq_of_lt low, Nat.add_zero,
    Nat.mul_add_mod_self_right, Nat.mod_mod]

end BitField
