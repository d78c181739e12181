import Mathlib.Tactic.Ring
import Mathlib.Tactic.Positivity

/-!
# Big-endian numbers

A number written as a byte string, most significant byte first. `value` reads a byte
string of any length, `bytes n v` writes the `n` low bytes of `v`. The two are inverse up
to the width (`value_bytes`, `bytes_value`), and reading splits at any boundary
(`value_append`), which is what lets a word be written in pieces of one size and read
back in pieces of another.
-/

namespace BigEndian

/-- The number a byte string spells. -/
def value : List UInt8 → Nat
  | [] => 0
  | b :: bs => b.toNat * 256 ^ bs.length + value bs

/-- The `n` low bytes of `v`. -/
def bytes : Nat → Nat → List UInt8
  | 0, _ => []
  | n + 1, v => UInt8.ofNat (v / 256 ^ n) :: bytes n v

@[simp] theorem length_bytes (n v : Nat) : (bytes n v).length = n := by
  induction n with
  | zero => rfl
  | succ n ih => simp [bytes, ih]

@[simp] theorem value_nil : value [] = 0 := rfl

theorem value_singleton (b : UInt8) : value [b] = b.toNat := by
  simp [value]

theorem value_append (as bs : List UInt8) :
    value (as ++ bs) = value as * 256 ^ bs.length + value bs := by
  induction as with
  | nil => simp
  | cons a as ih =>
    simp only [List.cons_append, value, ih, List.length_append, pow_add]
    ring

theorem value_lt (bs : List UInt8) : value bs < 256 ^ bs.length := by
  induction bs with
  | nil => simp
  | cons b bs ih =>
    have digit := b.toNat_lt
    have scaled : b.toNat * 256 ^ bs.length + 256 ^ bs.length ≤ 256 * 256 ^ bs.length := by
      calc b.toNat * 256 ^ bs.length + 256 ^ bs.length
          = (b.toNat + 1) * 256 ^ bs.length := by ring
        _ ≤ 256 * 256 ^ bs.length := Nat.mul_le_mul_right _ (by omega)
    simp only [value, List.length_cons, pow_succ]
    omega

/-- All-zero bytes spell zero. -/
@[simp] theorem value_replicate_zero (n : Nat) : value (List.replicate n 0) = 0 := by
  induction n with
  | zero => rfl
  | succ n ih => simp [List.replicate_succ, value, ih]

theorem value_bytes (n v : Nat) : value (bytes n v) = v % 256 ^ n := by
  induction n with
  | zero => simp [bytes, Nat.mod_one]
  | succ n ih =>
    simp only [bytes, value, ih, length_bytes]
    have digit : (UInt8.ofNat (v / 256 ^ n)).toNat = v / 256 ^ n % 256 := by simp
    rw [digit, pow_succ, Nat.mod_mul, Nat.mul_comm (256 ^ n), Nat.add_comm]

theorem bytes_value (bs : List UInt8) : bytes bs.length (value bs) = bs := by
  have shift : ∀ (n k v : Nat), bytes n (k * 256 ^ n + v) = bytes n v := by
    intro n
    induction n with
    | zero => intro k v; rfl
    | succ n ih =>
      intro k v
      have split : k * 256 ^ (n + 1) + v = 256 ^ n * (256 * k) + v := by ring
      simp only [bytes]
      congr 1
      · apply UInt8.toNat_inj.mp
        rw [split, Nat.mul_add_div (by positivity)]
        simp
      · rw [show k * 256 ^ (n + 1) + v = (256 * k) * 256 ^ n + v by ring]
        exact ih (256 * k) v
  induction bs with
  | nil => rfl
  | cons b bs ih =>
    simp only [List.length_cons, bytes, value, shift, ih]
    congr 1
    apply UInt8.toNat_inj.mp
    rw [Nat.mul_comm, Nat.mul_add_div (by positivity), Nat.div_eq_of_lt (value_lt bs)]
    simp

/-- Bytes that are there spell a number. -/
theorem exists_bytes {n : Nat} {l : List UInt8} (enough : n ≤ l.length) :
    ∃ v rest, v < 256 ^ n ∧ l = bytes n v ++ rest := by
  have length : (l.take n).length = n := List.length_take_of_le enough
  have small := value_lt (l.take n)
  have spelled := bytes_value (l.take n)
  rw [length] at small spelled
  refine ⟨value (l.take n), l.drop n, small, ?_⟩
  rw [spelled, List.take_append_drop]

/-- Only the low bytes of a number are written. -/
theorem bytes_eq_iff {n u v : Nat} : bytes n u = bytes n v ↔ u % 256 ^ n = v % 256 ^ n := by
  constructor
  · intro same
    rw [← value_bytes, same, value_bytes]
  · intro same
    have low : ∀ w, bytes n (w % 256 ^ n) = bytes n w := by
      intro w
      have spelled := bytes_value (bytes n w)
      rwa [length_bytes, value_bytes] at spelled
    rw [← low u, same, low v]

/-- Two numbers in a row are one. -/
theorem bytes_append {m n u v : Nat} (high : u < 256 ^ m) (low : v < 256 ^ n) :
    bytes m u ++ bytes n v = bytes (m + n) (u * 256 ^ n + v) := by
  have number : value (bytes m u ++ bytes n v) = u * 256 ^ n + v := by
    rw [value_append, value_bytes, value_bytes, length_bytes, Nat.mod_eq_of_lt high, Nat.mod_eq_of_lt low]
  rw [← number]
  have length : (bytes m u ++ bytes n v).length = m + n := by rw [List.length_append, length_bytes, length_bytes]
  rw [← length, bytes_value]

theorem bytes_one (v : Nat) : bytes 1 v = [UInt8.ofNat v] := by
  simp [bytes]

end BigEndian
