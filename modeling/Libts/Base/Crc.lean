import Mathlib.Logic.Function.Iterate
import Libts.Base.BigEndian

/-!
# Cyclic redundancy checks

A register of `w` bits takes a message bit by bit, the most significant bit first, and
subtracts a polynomial whenever a one falls out at the top (`step`). This is linear in the
register, so a run over `n` bits is `n` shifts of the register with the bits added at its
top (`foldl_bitsOf`). Two things follow: eight bits at once are one look into a table
(`foldl_byte`), and a register that takes its own bits is empty afterwards (`foldl_self`).
-/

namespace Crc

variable {w : Nat} (poly : BitVec w)

/-- What is subtracted for the bit that falls out. -/
def drawn (b : Bool) : BitVec w := if b then poly else 0

/-- The register moves up one bit. -/
def shift (r : BitVec w) : BitVec w := (r <<< 1) ^^^ drawn poly r.msb

/-- The register takes one bit of the message. -/
def step (r : BitVec w) (b : Bool) : BitVec w := (r <<< 1) ^^^ drawn poly (r.msb ^^ b)

/-- The `n` low bits of a number, the most significant first. -/
def bitsOf : Nat → Nat → List Bool
  | 0, _ => []
  | n + 1, v => v.testBit n :: bitsOf n v

/-- The bits of a byte string. -/
def bits (l : List UInt8) : List Bool := l.flatMap fun byte => bitsOf 8 byte.toNat

/-- The check of a byte string, bit by bit. -/
def bitwise (init : BitVec w) (l : List UInt8) : BitVec w := (bits l).foldl (step poly) init

/-- The entry of a table for the eight bits that fall out. -/
def entry (i : BitVec w) : BitVec w := (shift poly)^[8] (i <<< (w - 8))

/-! ## Bits -/

theorem bitsOf_add (m n v : Nat) : bitsOf (m + n) v = bitsOf m (v / 2 ^ n) ++ bitsOf n v := by
  induction m with
  | zero => rw [Nat.zero_add, bitsOf, List.nil_append]
  | succ m ih => rw [Nat.succ_add, bitsOf, bitsOf, ih, Nat.testBit_div_two_pow, List.cons_append]

/-- Only the low bits of a number are there. -/
theorem bitsOf_mod {m n : Nat} (v : Nat) (low : n ≤ m) : bitsOf n (v % 2 ^ m) = bitsOf n v := by
  induction n with
  | zero => rfl
  | succ n ih =>
    have inside : n < m := low
    rw [bitsOf, bitsOf, ih (by omega), Nat.testBit_mod_two_pow]
    simp [inside]

theorem bits_cons (byte : UInt8) (l : List UInt8) : bits (byte :: l) = bitsOf 8 byte.toNat ++ bits l := List.flatMap_cons

theorem bits_append (l l' : List UInt8) : bits (l ++ l') = bits l ++ bits l' := List.flatMap_append

/-- The bits of a big-endian number. -/
theorem bits_bytes (n v : Nat) : bits (BigEndian.bytes n v) = bitsOf (8 * n) v := by
  induction n with
  | zero => rfl
  | succ n ih =>
    have digit : bitsOf 8 (UInt8.ofNat (v / 256 ^ n)).toNat = bitsOf 8 (v / 2 ^ (8 * n)) := by
      rw [UInt8.toNat_ofNat', bitsOf_mod _ (Nat.le_refl 8), Nat.pow_mul]
    calc bits (BigEndian.bytes (n + 1) v)
        = bitsOf 8 (UInt8.ofNat (v / 256 ^ n)).toNat ++ bits (BigEndian.bytes n v) := rfl
      _ = bitsOf 8 (v / 2 ^ (8 * n)) ++ bitsOf (8 * n) v := by rw [digit, ih]
      _ = bitsOf (8 * (n + 1)) v := by rw [← bitsOf_add, Nat.mul_succ, Nat.add_comm]

/-! ## Linearity -/

theorem drawn_xor (a b : Bool) : drawn poly (a ^^ b) = drawn poly a ^^^ drawn poly b := by
  cases a <;> cases b <;> simp [drawn]

theorem shift_xor (r r' : BitVec w) : shift poly (r ^^^ r') = shift poly r ^^^ shift poly r' := by
  simp only [shift, BitVec.msb_xor, BitVec.shiftLeft_xor_distrib, drawn_xor]
  ac_rfl

theorem iterate_xor (n : Nat) (r r' : BitVec w) :
    (shift poly)^[n] (r ^^^ r') = (shift poly)^[n] r ^^^ (shift poly)^[n] r' := by
  induction n generalizing r r' with
  | zero => rfl
  | succ n ih => rw [Function.iterate_succ_apply, Function.iterate_succ_apply, Function.iterate_succ_apply, shift_xor, ih]

theorem iterate_zero (n : Nat) : (shift poly)^[n] 0#w = 0#w := by
  have still : shift poly 0#w = 0#w := by simp [shift, drawn]
  exact Function.iterate_fixed still n

/-- A bit of the message is added to the one that falls out. -/
theorem step_msb (r x : BitVec w) : step poly r x.msb ^^^ (x <<< 1) = shift poly (r ^^^ x) := by
  simp only [step, shift, BitVec.msb_xor, BitVec.shiftLeft_xor_distrib]
  ac_rfl

/-- A run over the low bits of a number shifts the register with the number at its top. -/
theorem foldl_bitsOf {n : Nat} (inside : n ≤ w) (v : Nat) (r : BitVec w) :
    (bitsOf n v).foldl (step poly) r = (shift poly)^[n] (r ^^^ (BitVec.ofNat w v <<< (w - n))) := by
  induction n generalizing r with
  | zero =>
    have out : BitVec.ofNat w v <<< w = 0#w := BitVec.shiftLeft_eq_zero (Nat.le_refl w)
    rw [Nat.sub_zero, out, BitVec.xor_zero]
    rfl
  | succ n ih =>
    have top : (BitVec.ofNat w v <<< (w - (n + 1))).msb = v.testBit n := by
      have place : w - 1 - (w - (n + 1)) = n := by omega
      have first : w - (n + 1) < w := by omega
      have there : n < w := inside
      rw [BitVec.msb_shiftLeft, BitVec.getMsbD, place, BitVec.getLsbD_ofNat]
      simp [first, there]
    have next : BitVec.ofNat w v <<< (w - (n + 1)) <<< 1 = BitVec.ofNat w v <<< (w - n) := by
      rw [← BitVec.shiftLeft_add]
      congr 1
      omega
    rw [bitsOf, List.foldl_cons, ih (by omega), Function.iterate_succ_apply, ← next, ← top, step_msb]

/-- A register that takes its own bits is empty. -/
theorem foldl_self (r : BitVec w) : (bitsOf w r.toNat).foldl (step poly) r = 0#w := by
  rw [foldl_bitsOf poly (Nat.le_refl w), Nat.sub_self, BitVec.shiftLeft_zero, BitVec.ofNat_toNat, BitVec.setWidth_eq,
    BitVec.xor_self, iterate_zero]

/-- The check of a byte string with its own check behind it is empty. -/
theorem bitwise_append {n : Nat} (width : w = 8 * n) (init : BitVec w) (l : List UInt8) :
    bitwise poly init (l ++ BigEndian.bytes n (bitwise poly init l).toNat) = 0#w := by
  rw [bitwise, bits_append, bits_bytes, List.foldl_append, ← width]
  exact foldl_self poly _

/-! ## Tables -/

/-- As long as no one falls out nothing is subtracted. -/
theorem iterate_clear {n : Nat} {x : BitVec w} (clear : ∀ i < n, x.getMsbD i = false) :
    (shift poly)^[n] x = x <<< n := by
  induction n generalizing x with
  | zero => exact (BitVec.shiftLeft_zero x).symm
  | succ n ih =>
    have first : shift poly x = x <<< 1 := by
      rw [shift, BitVec.msb, clear 0 (by omega)]
      exact BitVec.xor_zero
    have rest : ∀ i < n, (x <<< 1).getMsbD i = false := by
      intro i inside
      rw [BitVec.getMsbD_shiftLeft]
      exact clear (i + 1) (by omega)
    rw [Function.iterate_succ_apply, first, ih rest, ← BitVec.shiftLeft_add, Nat.add_comm]

/-- The eight bits at the top of a register are cleared by what is above the others. -/
theorem getMsbD_low (wide : 8 ≤ w) (r : BitVec w) {i : Nat} (inside : i < 8) :
    ((r >>> (w - 8) <<< (w - 8)) ^^^ r).getMsbD i = false := by
  have there : i + (w - 8) < w := by omega
  have past : ¬ i + (w - 8) < w - 8 := by omega
  have back : i + (w - 8) - (w - 8) = i := by omega
  rw [BitVec.getMsbD_xor, BitVec.getMsbD_shiftLeft, BitVec.getMsbD_ushiftRight, back]
  simp [there, past]

/-- Eight bits at once: the register moves up eight bits, and what falls out is looked up with the
byte added to it. -/
theorem foldl_byte (wide : 8 ≤ w) (r : BitVec w) (byte : UInt8) :
    (bitsOf 8 byte.toNat).foldl (step poly) r =
      (r <<< 8) ^^^ entry poly ((r >>> (w - 8)) ^^^ BitVec.ofNat w byte.toNat) := by
  obtain ⟨low, split⟩ : ∃ low, low = (r >>> (w - 8) <<< (w - 8)) ^^^ r := ⟨_, rfl⟩
  have clear : ∀ i < 8, low.getMsbD i = false := by
    intro i inside
    rw [split]
    exact getMsbD_low wide r inside
  have high : r >>> (w - 8) <<< (w - 8) <<< 8 = 0#w := by
    rw [← BitVec.shiftLeft_add, Nat.sub_add_cancel wide]
    exact BitVec.shiftLeft_eq_zero (Nat.le_refl w)
  have moved : low <<< 8 = r <<< 8 := by
    rw [split, BitVec.shiftLeft_xor_distrib, high, BitVec.zero_xor]
  have whole : r = low ^^^ (r >>> (w - 8) <<< (w - 8)) := by
    rw [split, BitVec.xor_comm, ← BitVec.xor_assoc, BitVec.xor_self, BitVec.zero_xor]
  calc (bitsOf 8 byte.toNat).foldl (step poly) r
      = (shift poly)^[8] (r ^^^ (BitVec.ofNat w byte.toNat <<< (w - 8))) := foldl_bitsOf poly wide _ r
    _ = (shift poly)^[8] (low ^^^ ((r >>> (w - 8)) ^^^ BitVec.ofNat w byte.toNat) <<< (w - 8)) := by
        rw [BitVec.shiftLeft_xor_distrib, ← BitVec.xor_assoc, ← whole]
    _ = (low <<< 8) ^^^ entry poly ((r >>> (w - 8)) ^^^ BitVec.ofNat w byte.toNat) := by
        rw [iterate_xor, iterate_clear poly clear, entry]
    _ = (r <<< 8) ^^^ entry poly ((r >>> (w - 8)) ^^^ BitVec.ofNat w byte.toNat) := by rw [moved]

/-- What is looked up is in a table of 256 entries. -/
theorem index_lt (wide : 8 ≤ w) (r : BitVec w) (byte : UInt8) :
    ((r >>> (w - 8)) ^^^ BitVec.ofNat w byte.toNat).toNat < 256 := by
  have high : r.toNat / 2 ^ (w - 8) < 2 ^ 8 := by
    apply Nat.div_lt_of_lt_mul
    rw [← Nat.pow_add, Nat.sub_add_cancel wide]
    exact r.isLt
  have digit : byte.toNat % 2 ^ w < 2 ^ 8 := Nat.lt_of_le_of_lt (Nat.mod_le _ _) byte.toNat_lt
  rw [BitVec.toNat_xor, BitVec.toNat_ushiftRight, BitVec.toNat_ofNat, Nat.shiftRight_eq_div_pow]
  exact Nat.xor_lt_two_pow high digit

/-- A check made with a table is the check bit by bit. -/
theorem foldl_table (wide : 8 ≤ w) {table : BitVec w → BitVec w}
    (entries : ∀ i : BitVec w, i.toNat < 256 → table i = entry poly i) (init : BitVec w) (l : List UInt8) :
    l.foldl (fun (r : BitVec w) byte => (r <<< 8) ^^^ table ((r >>> (w - 8)) ^^^ BitVec.ofNat w byte.toNat)) init =
      bitwise poly init l := by
  induction l generalizing init with
  | nil => rfl
  | cons byte l ih =>
    rw [List.foldl_cons, ih, entries _ (index_lt wide init byte), ← foldl_byte poly wide, bitwise, bitwise, bits_cons,
      List.foldl_append]

end Crc
