import Libts.Bytestream

/-!
# The program clock reference

`ts_pcr.c`: a 33-bit base and a 9-bit extension around six reserved bits, in six bytes. The base is read with a mask
whose shift C does not define for `int`, so what is read depends on the compilation.
-/

namespace Libts
set_option autoImplicit false

open CArith

namespace TsPcr

def pack (value : BitVec 64) (s : Bytestream) : Int × Bytestream :=
  let base := value / 300#64
  let ext := value - base * 300#64
  let v := (base <<< 15) + (ext &&& 0x1ff#64)
  let s := s.write32 (v >>> 16).toNat
  let s := s.write16 v.toNat
  (s.result, s)

/-- The clock value in the 48-bit word `v`. -/
def ofWord [Compilation] (v : Nat) : BitVec 64 :=
  BitVec.ofNat 64 (readBits v 48 0 33 (Compilation.mask 33)) * 300#64 + BitVec.ofNat 64 (readBits v 48 39 9)

/-- The two reads are operands of one sum; compilers evaluate the left one first. -/
def unpack [Compilation] (s : Bytestream) : Int × BitVec 64 × Bytestream :=
  let (high, s) := s.read32
  let (low, s) := s.read16
  let v := (high <<< 16) + low
  (s.result, ofWord v, s)

/-- The six bytes `pack` writes. -/
def bytes (value : BitVec 64) : List UInt8 :=
  let base := value / 300#64
  let v := (base <<< 15) + ((value - base * 300#64) &&& 0x1ff#64)
  BigEndian.bytes 4 (v >>> 16).toNat ++ BigEndian.bytes 2 v.toNat

@[simp] theorem length_bytes (value : BitVec 64) : (bytes value).length = 6 := by
  simp [bytes]

theorem pack_stream {s : Bytestream} (h : s.attached = true) (value : BitVec 64) :
    (pack value s).2 = s.write (bytes value) := by
  simp only [pack, bytes, Bytestream.write32, Bytestream.write16]
  rw [Bytestream.write_write h]

/-- The clock value read from the first six bytes of `l`. -/
def read [Compilation] (l : List UInt8) : BitVec 64 :=
  ofWord ((BigEndian.value (l.take 4) <<< 16) + BigEndian.value ((l.drop 4).take 2))

/-- Only the first six bytes matter. -/
theorem read_take [Compilation] {l : List UInt8} {n : Nat} (enough : 6 ≤ n) : read (l.take n) = read l := by
  unfold read
  rw [List.take_take, List.drop_take, List.take_take, Nat.min_eq_left (by omega), Nat.min_eq_left (by omega)]

theorem unpack_stream [Compilation] (s : Bytestream) : (unpack s).2.2 = s.skip 6 := by
  simp only [unpack, Bytestream.read32, Bytestream.read16]
  exact s.skip_skip 4 2

theorem unpack_value [Compilation] {s : Bytestream} {l : List UInt8} (h : s.Holds l) (enough : 6 ≤ l.length) :
    (unpack s).2.1 = read l := by
  have rest : (s.skip 4).Holds (l.drop 4) := h.skip (by omega)
  have high : s.peek 4 = l.take 4 := h.peek (by omega)
  have low : (s.skip 4).peek 2 = (l.drop 4).take 2 := rest.peek (by simp only [List.length_drop]; omega)
  simp only [unpack, Bytestream.read32, Bytestream.read16, high, low, read]

end TsPcr
end Libts
