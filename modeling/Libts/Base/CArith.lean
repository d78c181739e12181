import Mathlib.Algebra.Group.Int.Defs
import Mathlib.Algebra.Group.Nat.Defs

/-!
# C integer arithmetic

The conversions of C on a 64-bit machine that a length or a counter can go through:
`size_t` differences, which wrap, the conversion of a `size_t` to `int`, which keeps the
low 32 bits as a signed number, and the mask `(1 << bits) - 1` of an `int`, which C defines for
fewer than 31 bits only. What stands for it elsewhere is up to the `Compilation`, and nothing is
assumed of that.
-/

namespace CArith

/-- `a - b` in `size_t`. -/
def sizeSub (a b : Nat) : Nat := (a + 2 ^ 64 - b % 2 ^ 64) % 2 ^ 64

/-- A `size_t` or a `uint32_t` assigned to an `int`. -/
def intOfSize (n : Nat) : Int :=
  if n % 2 ^ 32 < 2 ^ 31 then (n % 2 ^ 32 : Nat) else (n % 2 ^ 32 : Nat) - 2 ^ 32

/-- An `int` passed where a `uint64_t` is expected. -/
def uint64OfInt (v : Int) : Nat := (v % 2 ^ 64).toNat

/-- `1 << bits` is defined on `int`: the count is below the width and the value is an `int`. -/
def ShiftDefined (bits : Nat) : Prop := bits < 32 ∧ 2 ^ bits < 2 ^ 31

instance (bits : Nat) : Decidable (ShiftDefined bits) :=
  inferInstanceAs (Decidable (bits < 32 ∧ 2 ^ bits < 2 ^ 31))

/-- `(1 << bits) - 1` on `int`, as the `uint64_t` it is combined with, and `undefined` where the
shift is not defined. -/
def intMask (bits : Nat) (undefined : BitVec 64) : Nat :=
  if ShiftDefined bits then 2 ^ bits - 1 else undefined.toNat

/-- A compilation of the program, with what it makes of a mask whose shift is not defined. -/
class Compilation where
  mask : Nat → BitVec 64

namespace Compilation

/-- The x86 shift at run time takes the count modulo 32. -/
@[reducible] def atRunTime : Compilation := ⟨fun bits => BitVec.ofNat 64 (2 ^ (bits % 32) - 1)⟩

/-- A compiler that folds the shift may do so without a bound on the count. -/
@[reducible] def folded : Compilation := ⟨fun bits => BitVec.ofNat 64 (2 ^ bits - 1)⟩

end Compilation

/-- The largest object C can hold, `PTRDIFF_MAX`; `malloc` serves no request above it. -/
def ptrdiffMax : Nat := 2 ^ 63 - 1

theorem shiftDefined_iff {bits : Nat} : ShiftDefined bits ↔ bits < 31 := by
  rw [ShiftDefined, Nat.pow_lt_pow_iff_right (by decide)]
  omega

theorem intMask_of_lt {bits : Nat} (narrow : bits < 31) (undefined : BitVec 64) : intMask bits undefined = 2 ^ bits - 1 :=
  if_pos (shiftDefined_iff.2 narrow)

theorem sizeSub_of_le {a b : Nat} (h : b ≤ a) (small : a - b < 2 ^ 64) : sizeSub a b = a - b := by
  unfold sizeSub
  omega

/-- A difference below zero wraps to the top of the range. -/
theorem sizeSub_of_lt {a b : Nat} (h : a < b) (small : b < 2 ^ 64) :
    sizeSub a b = 2 ^ 64 - (b - a) := by
  unfold sizeSub
  omega

theorem intOfSize_of_lt {n : Nat} (small : n < 2 ^ 31) : intOfSize n = n := by
  unfold intOfSize
  rw [Nat.mod_eq_of_lt (by omega), if_pos small]

theorem uint64OfInt_of_lt {n : Nat} (small : n < 2 ^ 64) : uint64OfInt n = n := by
  unfold uint64OfInt
  omega

/-- On the way through `int` a 32-bit word keeps its bits. -/
theorem uint64OfInt_intOfSize {n : Nat} (word : n < 2 ^ 32) : uint64OfInt (intOfSize n) % 2 ^ 32 = n := by
  unfold uint64OfInt intOfSize
  split <;> omega

/-- The sizes that are still large as an `int`. -/
theorem intOfSize_ge_iff {n m : Nat} (positive : 0 < m) (small : m < 2 ^ 31) :
    (m : Int) ≤ intOfSize n ↔ m ≤ n % 2 ^ 32 ∧ n % 2 ^ 32 < 2 ^ 31 := by
  unfold intOfSize
  split <;> omega

/-- The low 16 bits survive the way through `int`. -/
theorem uint64OfInt_intOfSize_mod (n : Nat) : uint64OfInt (intOfSize n) % 2 ^ 16 = n % 2 ^ 16 := by
  unfold uint64OfInt intOfSize
  split <;> omega

end CArith
