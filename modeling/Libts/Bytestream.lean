import Libts.Base.BigEndian
import Libts.Base.BitField
import Libts.Base.CArith

/-!
# The byte stream

`bytestream.c`: a cursor over a block of memory or over a growing `buffer`. A read that
asks for more than is left delivers zeros and leaves the stream destructed, and every
later read on it fails as well, so the decoders check for truncation once, at their end.

Every state a decoder goes through is the initial stream skipped by some number of bytes
(`skip_skip`), and `Holds s l` says that `s` is valid and `l` is what it has still to
read. Every state an encoder goes through is the initial stream with some bytes written
(`write_write`).
-/

namespace Libts
set_option autoImplicit false

/-- libdynamic's `buffer`, a byte string. -/
abbrev Buffer := List UInt8

/-- `buffer_data`: NULL until the first byte is inserted. -/
def bufferData (b : Buffer) : Option (List UInt8) := if b.isEmpty then none else some b

/-- `buffer_insert`. -/
def bufferInsert (b : Buffer) (position : Nat) (bytes : List UInt8) : Buffer :=
  b.take position ++ bytes ++ b.drop position

/-- A block of memory whose size the source keeps in a `uint8_t` next to the pointer. -/
structure Block where
  data : List UInt8
  fits : data.length < 256
deriving Repr, DecidableEq

instance : Inhabited Block := ⟨[], by decide⟩

/-- The first `n` bytes of `l`. -/
def Block.take (l : List UInt8) (n : UInt8) : Block :=
  ⟨l.take n.toNat, Nat.lt_of_le_of_lt (List.length_take_le _ _) n.toNat_lt⟩

/-- The size kept next to the pointer. -/
def Block.size (b : Block) : Nat := b.data.length

@[ext] theorem Block.ext {a b : Block} (h : a.data = b.data) : a = b := by
  cases a; cases b; simpa using h

/-- The C struct, with `buffer != NULL` as `attached`. `store` is the content of the buffer
object the stream was constructed on: it is not part of the struct, and it outlives the
pointer to it. -/
structure Bytestream where
  store : Buffer
  attached : Bool
  data : Option (List UInt8)
  begin : Nat
  endPos : Nat
deriving Repr, DecidableEq

namespace Bytestream

def construct (data : Option (List UInt8)) (size : Nat) : Bytestream :=
  { store := [], attached := false, data := data, begin := 0, endPos := size }

def constructBuffer (buffer : Buffer) : Bytestream :=
  { store := buffer, attached := true, data := bufferData buffer, begin := 0, endPos := buffer.length }

/-- A stream over a buffer of which `k` bytes were read. -/
def reading (buffer : Buffer) (k : Nat) : Bytestream := { constructBuffer buffer with begin := k }

def destruct (s : Bytestream) : Bytestream :=
  { store := s.store, attached := false, data := none, begin := 0, endPos := 0 }

def valid (s : Bytestream) : Bool := s.data.isSome

/-- `bytestream_data`. -/
def bytestreamData (s : Bytestream) : Option (List UInt8) := s.data.map (List.drop s.begin)

def size (s : Bytestream) : Nat := s.endPos - s.begin

/-- The guard of `bytestream_read`. -/
def short (s : Bytestream) (size : Nat) : Bool := decide (size > s.size) || !s.valid

/-- What `bytestream_read` puts at `data`. -/
def peek (s : Bytestream) (size : Nat) : List UInt8 :=
  if s.short size then List.replicate size 0 else ((s.data.getD []).drop s.begin).take size

/-- `bytestream_read` with `data == NULL`. -/
def skip (s : Bytestream) (size : Nat) : Bytestream :=
  if s.short size then s.destruct else { s with begin := s.begin + size }

/-- `bytestream_read`. -/
def read (s : Bytestream) (size : Nat) : List UInt8 × Bytestream := (s.peek size, s.skip size)

theorem length_peek_le (s : Bytestream) (n : Nat) : (s.peek n).length ≤ n := by
  unfold peek
  split
  · simp
  · simp only [List.length_take]
    omega

/-- A block read into memory allocated for it. -/
def readBlock (s : Bytestream) (size : UInt8) : Block × Bytestream :=
  (⟨s.peek size.toNat, Nat.lt_of_le_of_lt (s.length_peek_le _) size.toNat_lt⟩, s.skip size.toNat)

def read8 (s : Bytestream) : Nat × Bytestream := (BigEndian.value (s.peek 1), s.skip 1)

def read16 (s : Bytestream) : Nat × Bytestream := (BigEndian.value (s.peek 2), s.skip 2)

def read32 (s : Bytestream) : Nat × Bytestream := (BigEndian.value (s.peek 4), s.skip 4)

def read64 (s : Bytestream) : Nat × Bytestream := (BigEndian.value (s.peek 8), s.skip 8)

/-- `bytestream_valid(stream) ? 1 : -1`, the result of most codecs. -/
def result (s : Bytestream) : Int := if s.valid then 1 else -1

/-- `bytestream_write`. -/
def write (s : Bytestream) (bytes : List UInt8) : Bytestream :=
  if s.attached then
    let store := bufferInsert s.store s.store.length bytes
    { s with store := store, data := bufferData store, endPos := s.endPos + bytes.length }
  else s.destruct

def write8 (s : Bytestream) (value : Nat) : Bytestream := s.write (BigEndian.bytes 1 value)

def write16 (s : Bytestream) (value : Nat) : Bytestream := s.write (BigEndian.bytes 2 value)

def write32 (s : Bytestream) (value : Nat) : Bytestream := s.write (BigEndian.bytes 4 value)

def write64 (s : Bytestream) (value : Nat) : Bytestream := s.write (BigEndian.bytes 8 value)

end Bytestream

/-- `bytestream_read_bits`, on a `uint64_t`. `undefined` is the mask of a count whose shift C does
not define; the calls with another count leave it out. -/
def readBits (value size offset bits : Nat) (undefined : BitVec 64 := 0) : Nat :=
  (value >>> (size - offset - bits)) &&& CArith.intMask bits undefined

/-- `bytestream_write_bits`, on a `uint64_t`. -/
def writeBits (value size offset bits : Nat) (undefined : BitVec 64 := 0) : Nat :=
  ((value &&& CArith.intMask bits undefined) <<< (size - offset - bits)) % 2 ^ 64

/-- An integer assigned to a one-bit field. -/
def flag (value : Nat) : Bool := value % 2 == 1

/-! ## Bit fields -/

theorem readBits_eq {value size offset bits : Nat} (narrow : bits < 31) :
    readBits value size offset bits = value >>> (size - offset - bits) % 2 ^ bits := by
  rw [readBits, CArith.intMask_of_lt narrow, Nat.and_two_pow_sub_one_eq_mod]

/-- A field as a quotient. -/
theorem readBits_div {value size offset bits : Nat} (narrow : bits < 31) :
    readBits value size offset bits = value / 2 ^ (size - offset - bits) % 2 ^ bits := by
  rw [readBits_eq narrow, Nat.shiftRight_eq_div_pow]

theorem writeBits_eq {value size offset bits : Nat} (narrow : bits < 31) :
    writeBits value size offset bits = ((value % 2 ^ bits) <<< (size - offset - bits)) % 2 ^ 64 := by
  rw [writeBits, CArith.intMask_of_lt narrow, Nat.and_two_pow_sub_one_eq_mod]

/-- A written field in front of the fields that follow it in the word. -/
theorem writeBits_or_word {value size offset bits : Nat} {fs : List (Nat × Nat)} (narrow : bits < 31)
    (place : size - offset - bits = BitField.width fs) (fits : bits + BitField.width fs ≤ 64) :
    writeBits value size offset bits ||| BitField.word fs = BitField.word ((value, bits) :: fs) := by
  have field : value % 2 ^ bits < 2 ^ bits := Nat.mod_lt _ (by positivity)
  have small : value % 2 ^ bits * 2 ^ BitField.width fs < 2 ^ 64 := by
    calc value % 2 ^ bits * 2 ^ BitField.width fs
        < 2 ^ bits * 2 ^ BitField.width fs := Nat.mul_lt_mul_of_pos_right field (by positivity)
      _ = 2 ^ (bits + BitField.width fs) := (pow_add 2 _ _).symm
      _ ≤ 2 ^ 64 := Nat.pow_le_pow_right (by decide) fits
  rw [writeBits_eq narrow, place, BitField.word, Nat.shiftLeft_eq, Nat.mod_eq_of_lt small]

/-- The last written field of a word. -/
theorem writeBits_last {value size offset bits : Nat} (narrow : bits < 31)
    (place : size - offset - bits = 0) :
    writeBits value size offset bits = BitField.word [(value, bits)] := by
  have fits : bits + BitField.width [] ≤ 64 := by
    simp only [BitField.width]
    omega
  rw [← writeBits_or_word narrow place fits, BitField.word, Nat.or_zero]

/-- Reading a field of a word back. -/
theorem readBits_word {size offset bits : Nat} (fs : List (Nat × Nat)) (value : Nat)
    (gs : List (Nat × Nat)) (narrow : bits < 31) (place : size - offset - bits = BitField.width gs) :
    readBits (BitField.word (fs ++ (value, bits) :: gs)) size offset bits = value % 2 ^ bits := by
  rw [readBits_eq narrow, place, BitField.extract_word]

/-- Only the low bits of a word matter to its fields. -/
theorem readBits_mod {value size offset bits : Nat} (narrow : bits < 31) (inside : offset + bits ≤ size) :
    readBits value size offset bits = readBits (value % 2 ^ size) size offset bits := by
  obtain ⟨below, place⟩ : ∃ below, size - offset - bits = below := ⟨_, rfl⟩
  have split : size = below + (offset + bits) := by omega
  rw [readBits_eq narrow, readBits_eq narrow, place, Nat.shiftRight_eq_div_pow, Nat.shiftRight_eq_div_pow, split,
    Nat.pow_add 2 below, Nat.mod_mul_right_div_self, Nat.mod_mod_of_dvd]
  exact Nat.pow_dvd_pow 2 (by omega)

/-- A word that went through `int` has the same fields. -/
theorem readBits_int {value offset bits : Nat} (word : value < 2 ^ 32) (narrow : bits < 31) (inside : offset + bits ≤ 32) :
    readBits (CArith.uint64OfInt (CArith.intOfSize value)) 32 offset bits = readBits value 32 offset bits := by
  rw [readBits_mod narrow inside, CArith.uint64OfInt_intOfSize word]

@[simp] theorem flag_toNat_mod (b : Bool) : flag (b.toNat % 2 ^ 1) = b := by
  cases b <;> rfl

namespace Bytestream

/-! ## Reading -/

theorem short_iff {s : Bytestream} {n : Nat} : s.short n = true ↔ s.size < n ∨ s.valid = false := by
  simp [short]

theorem short_eq_false {s : Bytestream} {n : Nat} :
    s.short n = false ↔ n ≤ s.size ∧ s.valid = true := by
  simp [short]

theorem skip_of_short {s : Bytestream} {n : Nat} (h : s.short n = true) : s.skip n = s.destruct := by
  rw [skip, if_pos h]

@[simp] theorem valid_destruct (s : Bytestream) : s.destruct.valid = false := rfl

@[simp] theorem size_destruct (s : Bytestream) : s.destruct.size = 0 := rfl

@[simp] theorem destruct_skip (s : Bytestream) (n : Nat) : s.destruct.skip n = s.destruct := by
  rw [skip_of_short (short_iff.2 (Or.inr rfl))]
  rfl

/-- A skip is valid exactly when the bytes were there. -/
theorem valid_skip {s : Bytestream} {n : Nat} :
    (s.skip n).valid = true ↔ n ≤ s.size ∧ s.valid = true := by
  rw [← short_eq_false]
  cases h : s.short n
  · simpa [skip, h, valid] using (short_eq_false.1 h).2
  · simp [skip, h]

theorem size_skip (s : Bytestream) (n : Nat) :
    (s.skip n).size = if s.short n then 0 else s.size - n := by
  cases h : s.short n
  · simp [skip, h, size]; omega
  · simp [skip, h]

/-- Skips add up, whether or not the bytes are there. -/
theorem skip_skip (s : Bytestream) (a b : Nat) : (s.skip a).skip b = s.skip (a + b) := by
  cases h : s.short a
  · obtain ⟨enough, valid⟩ := short_eq_false.1 h
    have step : s.skip a = { s with begin := s.begin + a } := by simp [skip, h]
    have same : (s.skip a).short b = s.short (a + b) := by
      have size' : (s.skip a).size = s.size - a := by simp [size_skip, h]
      have valid' : (s.skip a).valid = true := valid_skip.2 ⟨enough, valid⟩
      simp only [short, size', valid', valid]
      congr 2
      simp only [eq_iff_iff]
      omega
    have unfolded : ∀ (t : Bytestream) (n : Nat),
        t.skip n = if t.short n then t.destruct else { t with begin := t.begin + n } := fun _ _ => rfl
    rw [unfolded (s.skip a), unfolded s (a + b), same, step]
    cases s.short (a + b)
    · simp [Nat.add_assoc]
    · rfl
  · have longer : s.short (a + b) = true := by
      rcases short_iff.1 h with few | invalid
      · exact short_iff.2 (Or.inl (by omega))
      · exact short_iff.2 (Or.inr invalid)
    rw [skip_of_short h, skip_of_short longer, destruct_skip]

/-- `t` is `s` moved forward by at least `n` bytes, or destructed by the attempt. -/
def Later (s : Bytestream) (n : Nat) (t : Bytestream) : Prop := ∃ k, n ≤ k ∧ t = s.skip k

theorem later_skip (s : Bytestream) (n : Nat) : s.Later n (s.skip n) := ⟨n, Nat.le_refl n, rfl⟩

theorem Later.skip {s t : Bytestream} {n : Nat} (h : s.Later n t) (m : Nat) : s.Later n (t.skip m) := by
  obtain ⟨k, far, rfl⟩ := h
  exact ⟨k + m, by omega, s.skip_skip k m⟩

theorem Later.step {s t : Bytestream} {n : Nat} (h : s.Later n t) (m : Nat) : s.Later (n + m) (t.skip m) := by
  obtain ⟨k, far, rfl⟩ := h
  exact ⟨k + m, by omega, s.skip_skip k m⟩

theorem Later.mono {s t : Bytestream} {m n : Nat} (h : s.Later n t) (le : m ≤ n) : s.Later m t := by
  obtain ⟨k, far, rfl⟩ := h
  exact ⟨k, by omega, rfl⟩

theorem Later.size_lt {s t : Bytestream} {n : Nat} (h : s.Later n t) (positive : 0 < n)
    (nonempty : s.size ≠ 0) : t.size < s.size := by
  obtain ⟨k, far, rfl⟩ := h
  rw [size_skip]
  split <;> omega

/-- `s` is valid and `l` are the bytes it has still to read. -/
structure Holds (s : Bytestream) (l : List UInt8) : Prop where
  isValid : s.valid = true
  sizeEq : s.size = l.length
  bytes : ((s.data.getD []).drop s.begin).take s.size = l

theorem holds_construct (l : List UInt8) : (construct (some l) l.length).Holds l :=
  ⟨rfl, rfl, by simp [construct, size]⟩

theorem holds_constructBuffer {b : Buffer} (nonempty : b ≠ []) : (constructBuffer b).Holds b := by
  have data : bufferData b = some b := by simp [bufferData, nonempty]
  exact ⟨by simp [constructBuffer, valid, data], rfl, by simp [constructBuffer, size, data]⟩

section Reading

variable {s : Bytestream} {l : List UInt8} {n : Nat}

theorem Holds.short_eq (h : s.Holds l) (n : Nat) : s.short n = decide (l.length < n) := by
  simp [short, h.sizeEq, h.isValid]

theorem Holds.skip (h : s.Holds l) (enough : n ≤ l.length) : (s.skip n).Holds (l.drop n) := by
  have notShort : s.short n = false := short_eq_false.2 ⟨h.sizeEq ▸ enough, h.isValid⟩
  have step : s.skip n = { s with begin := s.begin + n } := by simp [Bytestream.skip, notShort]
  have size' : (s.skip n).size = s.size - n := by simp [size_skip, notShort]
  refine ⟨valid_skip.2 (short_eq_false.1 notShort), by rw [size', h.sizeEq, List.length_drop], ?_⟩
  rw [size', step, ← h.bytes, List.drop_take, List.drop_drop]

theorem Holds.peek (h : s.Holds l) (enough : n ≤ l.length) : s.peek n = l.take n := by
  have notShort : s.short n = false := short_eq_false.2 ⟨h.sizeEq ▸ enough, h.isValid⟩
  rw [Bytestream.peek, notShort, ← h.bytes, List.take_take, Nat.min_eq_left (h.sizeEq ▸ enough)]
  rfl

/-- Asking a stream for more than it has destructs it. -/
theorem Holds.skip_short (h : s.Holds l) (few : l.length < n) : s.skip n = s.destruct :=
  skip_of_short (short_iff.2 (Or.inl (h.sizeEq ▸ few)))

theorem Holds.skip_zero (h : s.Holds l) : s.skip 0 = s := by
  have notShort : s.short 0 = false := short_eq_false.2 ⟨Nat.zero_le _, h.isValid⟩
  simp [Bytestream.skip, notShort]

theorem Holds.result (h : s.Holds l) : s.result = 1 := by
  rw [Bytestream.result, if_pos h.isValid]

theorem Holds.readBlock {n : UInt8} (h : s.Holds l) (enough : n.toNat ≤ l.length) :
    s.readBlock n = (Block.take l n, s.skip n.toNat) := by
  have data : s.peek n.toNat = l.take n.toNat := h.peek enough
  simp only [Bytestream.readBlock, Block.take, data]

/-- A stream of its own over the next bytes. -/
theorem Holds.construct (h : s.Holds l) (enough : n ≤ l.length) :
    (Bytestream.construct s.bytestreamData n).Holds (l.take n) := by
  obtain ⟨valid, size, bytes⟩ := h
  obtain ⟨d, data⟩ := Option.isSome_iff_exists.mp valid
  rw [data, Option.getD_some] at bytes
  have whole : s.bytestreamData = some (d.drop s.begin) := by rw [bytestreamData, data, Option.map_some]
  refine ⟨by rw [whole]; rfl, ?_, ?_⟩
  · rw [List.length_take, Nat.min_eq_left enough]
    rfl
  · rw [whole, ← bytes, List.take_take, Nat.min_eq_left (by omega)]
    rfl

/-- What is left of a stream, as the decoders copy it. -/
theorem Holds.rest (h : s.Holds l) : (s.bytestreamData.getD []).take s.size = l := by
  obtain ⟨valid, -, bytes⟩ := h
  obtain ⟨d, data⟩ := Option.isSome_iff_exists.mp valid
  rw [data, Option.getD_some] at bytes
  rw [bytestreamData, data, Option.map_some, Option.getD_some, bytes]

theorem Holds.size_skip (h : s.Holds l) (n : Nat) : (s.skip n).size = l.length - n := by
  rw [Bytestream.size_skip, h.short_eq, h.sizeEq]
  by_cases few : l.length < n
  · simp only [few, decide_true, if_true]
    omega
  · simp [few]

/-- The difference of two sizes of a stream is what was consumed in between. -/
theorem Holds.consumed (h : s.Holds l) (inside : n ≤ l.length) (near : n < 2 ^ 64) :
    CArith.sizeSub l.length (s.skip n).size = n := by
  rw [h.size_skip, CArith.sizeSub_of_le (by omega) (by omega)]
  omega

/-- The byte at a position of the bytes still to read; past their end it reads as zero. -/
theorem Holds.read8_getD (h : s.Holds l) (n : Nat) :
    (s.skip n).read8 = ((l.getD n 0).toNat, s.skip (n + 1)) := by
  rw [Bytestream.read8, skip_skip]
  by_cases inside : n < l.length
  · have rest : (s.skip n).Holds (l.drop n) := h.skip (by omega)
    have byte : (l.drop n).take 1 = [l.getD n 0] := by
      rw [List.drop_eq_getElem_cons inside, List.take_succ_cons, List.take_zero]
      simp [List.getD_eq_getElem?_getD, inside]
    have one : 1 ≤ (l.drop n).length := by
      simp only [List.length_drop]
      omega
    rw [rest.peek one, byte, BigEndian.value_singleton]
  · have few : (s.skip n).short 1 = true := by
      rw [short_iff, h.size_skip]
      left
      omega
    have zero : l.getD n 0 = 0 := by
      rw [List.getD_eq_getElem?_getD, List.getElem?_eq_none (by omega)]
      rfl
    rw [Bytestream.peek, if_pos few, zero, BigEndian.value_replicate_zero]
    rfl

variable {a : List UInt8}

theorem Holds.skip_append (h : s.Holds (a ++ l)) (width : a.length = n) : (s.skip n).Holds l := by
  have := h.skip (n := n) (by simp [width])
  rwa [List.drop_left' width] at this

theorem Holds.peek_append (h : s.Holds (a ++ l)) (width : a.length = n) : s.peek n = a := by
  rw [h.peek (by simp [width]), List.take_left' width]

variable {b : UInt8} {v : Nat}

theorem Holds.skip_cons (h : s.Holds (b :: l)) : (s.skip 1).Holds l :=
  Holds.skip_append (a := [b]) h rfl

theorem Holds.read8 (h : s.Holds (b :: l)) : s.read8 = (b.toNat, s.skip 1) := by
  have byte : s.peek 1 = [b] := Holds.peek_append (a := [b]) h rfl
  rw [Bytestream.read8, byte, BigEndian.value_singleton]

theorem Holds.read16 {a : UInt8} (h : s.Holds (a :: b :: l)) : s.read16 = (a.toNat * 256 + b.toNat, s.skip 2) := by
  have bytes : s.peek 2 = [a, b] := Holds.peek_append (a := [a, b]) h rfl
  rw [Bytestream.read16, bytes]
  simp [BigEndian.value]

theorem Holds.read8_bytes (h : s.Holds (BigEndian.bytes 1 v ++ l)) : s.read8 = (v % 2 ^ 8, s.skip 1) := by
  rw [Bytestream.read8, h.peek_append (BigEndian.length_bytes _ _), BigEndian.value_bytes]; rfl

theorem Holds.read16_bytes (h : s.Holds (BigEndian.bytes 2 v ++ l)) : s.read16 = (v % 2 ^ 16, s.skip 2) := by
  rw [Bytestream.read16, h.peek_append (BigEndian.length_bytes _ _), BigEndian.value_bytes]; rfl

theorem Holds.read32_bytes (h : s.Holds (BigEndian.bytes 4 v ++ l)) : s.read32 = (v % 2 ^ 32, s.skip 4) := by
  rw [Bytestream.read32, h.peek_append (BigEndian.length_bytes _ _), BigEndian.value_bytes]; rfl

end Reading

/-! ## Writing -/

section Writing

variable {s : Bytestream} {as bs : List UInt8}

theorem write_eq (h : s.attached = true) (as : List UInt8) :
    s.write as = { s with store := s.store ++ as, data := bufferData (s.store ++ as),
                          endPos := s.endPos + as.length } := by
  simp [write, h, bufferInsert]

theorem attached_write (h : s.attached = true) (as : List UInt8) : (s.write as).attached = true := by
  rw [write_eq h]; exact h

theorem write_write (h : s.attached = true) (as bs : List UInt8) :
    (s.write as).write bs = s.write (as ++ bs) := by
  rw [write_eq (attached_write h as), write_eq h, write_eq h]
  simp [Nat.add_assoc]

theorem store_write (h : s.attached = true) (as : List UInt8) : (s.write as).store = s.store ++ as := by
  rw [write_eq h]

theorem valid_write (h : s.attached = true) (some : as ≠ []) : (s.write as).valid = true := by
  rw [write_eq h]
  simp [valid, bufferData, some]

theorem result_write (h : s.attached = true) (some : as ≠ []) : (s.write as).result = 1 := by
  rw [result, if_pos (valid_write h some)]

/-- A write that is made only under a condition. -/
theorem write_if (h : s.attached = true) (c : Prop) [Decidable c] (as bs : List UInt8) :
    (if c then (s.write as).write bs else s.write as) = s.write (as ++ if c then bs else []) := by
  split
  · exact write_write h as bs
  · rw [List.append_nil]

/-- A stream over a buffer is determined by the bytes in it and by how many were read. -/
theorem write_reading (b : Buffer) (k : Nat) (as : List UInt8) : (reading b k).write as = reading (b ++ as) k := by
  rw [write_eq rfl]
  simp [reading, constructBuffer]

theorem size_reading (b : Buffer) (k : Nat) : (reading b k).size = b.length - k := rfl

theorem bytes_reading (b : Buffer) (k : Nat) : (reading b k).bytestreamData.getD [] = b.drop k := by
  cases b <;> simp [reading, constructBuffer, bytestreamData, bufferData]

theorem write_constructBuffer (b : Buffer) (as : List UInt8) :
    (constructBuffer b).write as = constructBuffer (b ++ as) := write_reading b 0 as

theorem bytes_constructBuffer (b : Buffer) :
    ((constructBuffer b).bytestreamData.getD []).take (constructBuffer b).size = b := by
  cases b <;> simp [constructBuffer, bytestreamData, bufferData, size]

/-- Nothing is written to a stream without a buffer. -/
theorem write_destruct (s : Bytestream) (as : List UInt8) : s.destruct.write as = s.destruct := rfl

end Writing

/-! ## Sound streams -/

/-- A stream as the functions of `bytestream.c` leave it: what is to be read is inside the data, and
the data of an attached stream is that of its buffer. -/
structure Sound (s : Bytestream) : Prop where
  ordered : s.begin ≤ s.endPos
  inside : s.endPos ≤ (s.data.getD []).length
  buffered : s.attached = true → s.data = bufferData s.store ∧ s.endPos = s.store.length

theorem sound_reading {b : Buffer} {k : Nat} (inside : k ≤ b.length) : (reading b k).Sound := by
  refine ⟨inside, ?_, fun _ => ⟨rfl, rfl⟩⟩
  cases b <;> simp [reading, constructBuffer, bufferData]

theorem Sound.eq_reading {s : Bytestream} (sound : s.Sound) (attached : s.attached = true) :
    s = reading s.store s.begin := by
  obtain ⟨data, length⟩ := sound.buffered attached
  rw [reading, constructBuffer, ← data, ← length, ← attached]

/-- What a stream still has to read is as long as its size. -/
theorem Sound.length_rest {s : Bytestream} (sound : s.Sound) :
    ((s.bytestreamData.getD []).take s.size).length = s.size := by
  have ordered := sound.ordered
  have inside := sound.inside
  rw [bytestreamData, size]
  cases data : s.data with
  | none =>
    rw [data] at inside
    simp only [Option.getD_none, List.length_nil] at inside
    simp
    omega
  | some d =>
    rw [data] at inside
    simp only [Option.getD_some] at inside
    simp
    omega

end Bytestream
end Libts
