import Libts.Packet.Pcr

/-!
# What the clock codec keeps

The encoder lays a clock value out as a 33-bit base, six reserved bits and a 9-bit
extension (`bytes_eq`). The decoder asks `bytestream_read_bits` for the base, and its mask
`(1 << 33) - 1` is an `int`: the shift is not defined in C. Whatever mask the compilation puts
there, the bits of the base that it has are read, and no others (`toNat_ofWord`). So the clocks that
survive are those whose base is `Kept`: all of them under a mask of 33 bits, those below 600 under the
mask of a count taken modulo 32.
-/

namespace Libts
set_option autoImplicit false

open CArith

namespace TsPcr

/-! The fields of a clock in six bytes. -/

def base (six : List UInt8) : Nat := BigEndian.value six / 2 ^ 15

def reserved (six : List UInt8) : Nat := BigEndian.value six / 2 ^ 9 % 2 ^ 6

def extension (six : List UInt8) : Nat := BigEndian.value six % 2 ^ 9

/-- The mask of the compilation for the base. -/
def baseMask [Compilation] : Nat := intMask 33 (Compilation.mask 33)

/-- The mask has all bits of the base. -/
def Kept [Compilation] (base : Nat) : Prop := base &&& baseMask = base

/-- The word of a clock, of any size: the base has 33 bits of room. -/
theorem value_bytes (value : BitVec 64) :
    BigEndian.value (bytes value) = value.toNat / 300 % 2 ^ 33 * 2 ^ 15 + value.toNat % 300 := by
  have quotient : (value / 300#64).toNat = value.toNat / 300 := by simp
  have remainder : (value - value / 300#64 * 300#64).toNat = value.toNat % 300 := by
    have bound := value.isLt
    have product : (value / 300#64 * 300#64).toNat = value.toNat / 300 * 300 := by
      rw [BitVec.toNat_mul, quotient]
      exact Nat.mod_eq_of_lt (show value.toNat / 300 * 300 < 2 ^ 64 by omega)
    rw [BitVec.toNat_sub, product]
    omega
  have masked : ((value - value / 300#64 * 300#64) &&& 0x1ff#64).toNat = value.toNat % 300 := by
    have mask : (0x1ff#64).toNat = 2 ^ 9 - 1 := rfl
    rw [BitVec.toNat_and, remainder, mask, Nat.and_two_pow_sub_one_eq_mod]
    omega
  have word : (((value / 300#64) <<< 15) + ((value - value / 300#64 * 300#64) &&& 0x1ff#64)).toNat =
      ((value.toNat / 300 * 2 ^ 15) % 2 ^ 64 + value.toNat % 300) % 2 ^ 64 := by
    rw [BitVec.toNat_add, masked, BitVec.toNat_shiftLeft, quotient, Nat.shiftLeft_eq]
  rw [bytes, BigEndian.value_append, BigEndian.value_bytes, BigEndian.value_bytes, BigEndian.length_bytes]
  simp only [BitVec.toNat_ushiftRight, word, Nat.shiftRight_eq_div_pow]
  omega

/-- The six bytes are one 48-bit number. -/
theorem bytes_eq {value : BitVec 64} (clock : value.toNat < 2 ^ 33 * 300) :
    bytes value = BigEndian.bytes 6 (value.toNat / 300 * 2 ^ 15 + value.toNat % 300) := by
  have spelled := BigEndian.bytes_value (bytes value)
  have base : value.toNat / 300 % 2 ^ 33 = value.toNat / 300 := Nat.mod_eq_of_lt (by omega)
  rw [length_bytes, value_bytes, base] at spelled
  exact spelled.symm

theorem bytes_parts {value : BitVec 64} {b e : Nat} (parts : value.toNat = b * 300 + e) (base : b < 2 ^ 33)
    (ext : e < 300) : bytes value = BigEndian.bytes 6 (b * 2 ^ 15 + e) := by
  have quotient : value.toNat / 300 = b := by omega
  have remainder : value.toNat % 300 = e := by omega
  rw [bytes_eq (by omega), quotient, remainder]

/-- What the decoder makes of a word: of the base the bits of the mask are left. -/
theorem toNat_ofWord [Compilation] {w : Nat} (word : w < 2 ^ 48) :
    (ofWord w).toNat = (w / 2 ^ 15 &&& baseMask) * 300 + w % 2 ^ 9 := by
  have base : readBits w 48 0 33 (Compilation.mask 33) = w / 2 ^ 15 &&& baseMask := by
    rw [readBits, Nat.shiftRight_eq_div_pow, baseMask]
  have extension : readBits w 48 39 9 = w % 2 ^ 9 := by
    rw [readBits_eq (by decide)]
    rfl
  have few : w / 2 ^ 15 &&& baseMask ≤ w / 2 ^ 15 := Nat.and_le_left
  rw [ofWord, base, extension, BitVec.toNat_add, BitVec.toNat_mul]
  simp only [BitVec.toNat_ofNat]
  omega

theorem read_eq [Compilation] {six rest : List UInt8} (width : six.length = 6) :
    read (six ++ rest) = ofWord (BigEndian.value six) := by
  have take : (six ++ rest).take 6 = six := List.take_left' width
  have low : (six.drop 4).length = 2 := by rw [List.length_drop, width]
  have scale : 256 ^ 2 = 2 ^ 16 := rfl
  have split := BigEndian.value_append (six.take 4) (six.drop 4)
  rw [List.take_append_drop, low, scale] at split
  rw [← read_take (Nat.le_refl 6), take, read, List.take_of_length_le (Nat.le_of_eq low), Nat.shiftLeft_eq, split]

theorem unpack_result [Compilation] {s : Bytestream} {l : List UInt8} (h : s.Holds l) (enough : 6 ≤ l.length) :
    (unpack s).1 = 1 := by
  have stream : (unpack s).1 = (unpack s).2.2.result := rfl
  rw [stream, unpack_stream, (h.skip enough).result]

/-- `pack` appends six bytes to any buffer, and `unpack` reads the clock from them wherever
they stand. -/
def ReadsBack [Compilation] (value : BitVec 64) : Prop :=
  ∀ s : Bytestream, s.attached = true →
    (pack value s).1 = 1 ∧ ∃ six : List UInt8, six.length = 6 ∧ (pack value s).2.store = s.store ++ six ∧
      ∀ (t : Bytestream) (rest : List UInt8), t.Holds (six ++ rest) → (unpack t).1 = 1 ∧ (unpack t).2.1 = value

/-- Packing the clock read from the six bytes writes them again. -/
def Rewrites [Compilation] (six : List UInt8) : Prop :=
  ∀ (t : Bytestream) (rest : List UInt8), t.Holds (six ++ rest) →
    ∀ s : Bytestream, s.attached = true → (pack (unpack t).2.1 s).2.store = s.store ++ six

theorem bytes_ne_nil (value : BitVec 64) : bytes value ≠ [] := by
  intro empty
  have width := length_bytes value
  rw [empty] at width
  contradiction

/-- Decoding the encoder's bytes loses the bits of the base that the mask does not have. -/
theorem read_bytes [Compilation] (value : BitVec 64) :
    (read (bytes value)).toNat = (value.toNat / 300 % 2 ^ 33 &&& baseMask) * 300 + value.toNat % 300 := by
  have word := value_bytes value
  have base : BigEndian.value (bytes value) / 2 ^ 15 = value.toNat / 300 % 2 ^ 33 := by omega
  have whole : read (bytes value ++ []) = ofWord (BigEndian.value (bytes value)) := read_eq (length_bytes value)
  rw [List.append_nil] at whole
  rw [whole, toNat_ofWord (by omega), base, word]
  omega

section Clock

variable [Compilation] {value : BitVec 64} (clock : value.toNat < 2 ^ 33 * 300)
include clock

theorem read_bytes_iff : read (bytes value) = value ↔ Kept (value.toNat / 300) := by
  have base : value.toNat / 300 % 2 ^ 33 = value.toNat / 300 := Nat.mod_eq_of_lt (by omega)
  rw [← BitVec.toNat_inj, read_bytes, base, Kept]
  omega

/-- A clock is read back exactly when its base is kept. -/
theorem readsBack_iff : ReadsBack value ↔ Kept (value.toNat / 300) := by
  have written : ∀ s : Bytestream, s.attached = true → (pack value s).2.store = s.store ++ bytes value := by
    intro s attached
    rw [pack_stream attached, Bytestream.store_write attached]
  constructor
  · intro back
    obtain ⟨-, six, width, stored, decode⟩ := back (Bytestream.constructBuffer []) rfl
    have same : six = bytes value := by
      rw [written _ rfl] at stored
      exact stored.symm
    subst same
    have holds : (Bytestream.constructBuffer (bytes value)).Holds (bytes value ++ []) := by
      rw [List.append_nil]
      exact Bytestream.holds_constructBuffer (bytes_ne_nil value)
    have decoded := (decode _ [] holds).2
    rw [unpack_value holds (by simp), List.append_nil] at decoded
    exact (read_bytes_iff clock).1 decoded
  · intro kept s attached
    have valid : (pack value s).1 = 1 := by
      have result : (pack value s).1 = (pack value s).2.result := rfl
      rw [result, pack_stream attached, Bytestream.result_write attached (bytes_ne_nil value)]
    refine ⟨valid, bytes value, length_bytes value, written s attached, ?_⟩
    intro t rest holds
    have enough : 6 ≤ (bytes value ++ rest).length := by simp
    refine ⟨unpack_result holds enough, ?_⟩
    rw [unpack_value holds enough, read_eq (length_bytes value), ← read_eq (length_bytes value), List.append_nil]
    exact (read_bytes_iff clock).2 kept

end Clock

theorem value_six {six : List UInt8} (unreserved : reserved six = 0) :
    BigEndian.value six = base six * 2 ^ 15 + extension six := by
  unfold reserved at unreserved
  unfold base extension
  omega

/-- Six bytes without reserved bits are written again exactly when their base is kept. -/
theorem rewrites_iff [Compilation] {six : List UInt8} (width : six.length = 6) (small : extension six < 300)
    (unreserved : reserved six = 0) : Rewrites six ↔ Kept (base six) := by
  have word := value_six unreserved
  have bound : BigEndian.value six < 256 ^ 6 := width ▸ BigEndian.value_lt six
  have few : base six &&& baseMask ≤ base six := Nat.and_le_left
  have whole : ∀ rest, read (six ++ rest) = ofWord (BigEndian.value six) := fun _ => read_eq width
  have clock : (ofWord (BigEndian.value six)).toNat = (base six &&& baseMask) * 300 + extension six :=
    toNat_ofWord (by omega)
  have written : bytes (ofWord (BigEndian.value six)) =
      BigEndian.bytes 6 ((base six &&& baseMask) * 2 ^ 15 + extension six) :=
    bytes_parts clock (by omega) small
  have again : bytes (ofWord (BigEndian.value six)) = six ↔ Kept (base six) := by
    constructor
    · intro same
      have number := congrArg BigEndian.value same
      rw [written, BigEndian.value_bytes, word, Nat.mod_eq_of_lt (by omega)] at number
      rw [Kept]
      omega
    · intro kept
      have spelled := BigEndian.bytes_value six
      rw [width, word] at spelled
      rw [written, kept, spelled]
  rw [← again]
  constructor
  · intro rewrites
    have holds : (Bytestream.constructBuffer six).Holds (six ++ []) := by
      rw [List.append_nil]
      exact Bytestream.holds_constructBuffer (List.ne_nil_of_length_eq_add_one width)
    have stored := rewrites _ [] holds (Bytestream.constructBuffer []) rfl
    rw [pack_stream rfl, Bytestream.store_write rfl, unpack_value holds (by simp [width]), whole] at stored
    exact stored
  · intro same t rest holds s attached
    rw [pack_stream attached, Bytestream.store_write attached, unpack_value holds (by simp [width]), whole, same]

/-- The mask selects the 33 low bits of every word exactly when it has these bits and no others. -/
theorem selects_iff [Compilation] :
    (∀ word : BitVec 64, word.toNat &&& baseMask = word.toNat % 2 ^ 33) ↔ baseMask = 2 ^ 33 - 1 := by
  have narrow : baseMask < 2 ^ 64 := by
    rw [baseMask, intMask, if_neg (by decide)]
    exact BitVec.isLt _
  constructor
  · intro selects
    have own := selects (BitVec.ofNat 64 baseMask)
    have low := selects (BitVec.ofNat 64 (2 ^ 33 - 1))
    rw [BitVec.toNat_ofNat, Nat.mod_eq_of_lt narrow, Nat.and_self] at own
    rw [BitVec.toNat_ofNat, Nat.and_comm, Nat.mod_eq_of_lt (by decide), Nat.and_two_pow_sub_one_eq_mod] at low
    omega
  · intro whole word
    rw [whole, Nat.and_two_pow_sub_one_eq_mod]

/-- **The clock codec.** Of the clocks below `2 ^ 33 * 300` and of the six-byte clocks exactly those are kept whose base
the mask of the compilation keeps. The shift behind that mask is not defined. -/
theorem codec_iff [Compilation] (value : BitVec 64) (six : List UInt8) :
    (value.toNat < 2 ^ 33 * 300 → (ReadsBack value ↔ Kept (value.toNat / 300))) ∧
      (six.length = 6 → extension six < 300 → reserved six = 0 → (Rewrites six ↔ Kept (base six))) ∧
      ((∀ word : BitVec 64, word.toNat &&& baseMask = word.toNat % 2 ^ 33) ↔ baseMask = 2 ^ 33 - 1) ∧
      ¬ ShiftDefined 33 :=
  ⟨readsBack_iff, rewrites_iff, selects_iff, by decide⟩

section Masks

variable {b : Nat}

/-- The mask of a count taken modulo 32 has one bit. -/
theorem kept_atRunTime : @Kept .atRunTime b ↔ b < 2 := by
  have one : @baseMask .atRunTime = 2 ^ 1 - 1 := by decide
  unfold Kept
  rw [one, Nat.and_two_pow_sub_one_eq_mod]
  omega

theorem kept_folded (base : b < 2 ^ 33) : @Kept .folded b := by
  have whole : @baseMask .folded = 2 ^ 33 - 1 := by decide
  unfold Kept
  rw [whole, Nat.and_two_pow_sub_one_eq_mod, Nat.mod_eq_of_lt base]

end Masks

theorem codec_iff_ends : @ReadsBack .atRunTime 599#64 ∧ @Rewrites .folded [0, 0, 0, 1, 0x81, 0x2b] := by
  obtain ⟨reads, -⟩ := @codec_iff .atRunTime 599#64 []
  obtain ⟨-, rewrites, -⟩ := @codec_iff .folded 0#64 [0, 0, 0, 1, 0x81, 0x2b]
  exact ⟨(reads (by decide)).2 (kept_atRunTime.2 (by decide)),
    (rewrites rfl (by decide) (by decide)).2 (kept_folded (by decide))⟩

/-- The clock 600 is written with base 2 and read as 0 where the count is taken modulo 32, and read back where the shift
is folded. -/
theorem not_codec_two :
    ¬ ShiftDefined 33 ∧ ¬ @ReadsBack .atRunTime 600#64 ∧ ¬ @Rewrites .atRunTime [0, 0, 0, 1, 0, 0] ∧
      @ReadsBack .folded 600#64 := by
  refine ⟨by decide, ?_, ?_, (@readsBack_iff .folded _ (by decide)).2 (kept_folded (by decide))⟩
  · intro back
    have small := kept_atRunTime.1 ((@readsBack_iff .atRunTime _ (by decide)).1 back)
    exact absurd small (by decide)
  · intro again
    have bit := kept_atRunTime.1 ((@rewrites_iff .atRunTime _ rfl (by decide) (by decide)).1 again)
    exact absurd bit (by decide)

end TsPcr
end Libts
