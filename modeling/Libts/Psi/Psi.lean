import Libts.Bytestream

/-!
# Program specific information

`ts_psi.c`: the header every table section has, around the data of the table. A section is
written with its checksum and padded to the end of its packet; the decoder reads the header
and leaves the stream in front of the data. It does not look at the checksum.
-/

namespace Libts
set_option autoImplicit false

open CArith

structure TsPsi where
  id : UInt8 := 0
  sectionLength : BitVec 10 := 0
  idExtension : UInt16 := 0
  version : BitVec 5 := 0
  current : Bool := false
  sectionNumber : UInt8 := 0
  lastSectionNumber : UInt8 := 0
deriving Repr, DecidableEq

namespace TsPsi

def crcTable : Array (BitVec 32) :=
  #[
    0x00000000, 0x04c11db7, 0x09823b6e, 0x0d4326d9, 0x130476dc, 0x17c56b6b, 0x1a864db2, 0x1e475005,
    0x2608edb8, 0x22c9f00f, 0x2f8ad6d6, 0x2b4bcb61, 0x350c9b64, 0x31cd86d3, 0x3c8ea00a, 0x384fbdbd,
    0x4c11db70, 0x48d0c6c7, 0x4593e01e, 0x4152fda9, 0x5f15adac, 0x5bd4b01b, 0x569796c2, 0x52568b75,
    0x6a1936c8, 0x6ed82b7f, 0x639b0da6, 0x675a1011, 0x791d4014, 0x7ddc5da3, 0x709f7b7a, 0x745e66cd,
    0x9823b6e0, 0x9ce2ab57, 0x91a18d8e, 0x95609039, 0x8b27c03c, 0x8fe6dd8b, 0x82a5fb52, 0x8664e6e5,
    0xbe2b5b58, 0xbaea46ef, 0xb7a96036, 0xb3687d81, 0xad2f2d84, 0xa9ee3033, 0xa4ad16ea, 0xa06c0b5d,
    0xd4326d90, 0xd0f37027, 0xddb056fe, 0xd9714b49, 0xc7361b4c, 0xc3f706fb, 0xceb42022, 0xca753d95,
    0xf23a8028, 0xf6fb9d9f, 0xfbb8bb46, 0xff79a6f1, 0xe13ef6f4, 0xe5ffeb43, 0xe8bccd9a, 0xec7dd02d,
    0x34867077, 0x30476dc0, 0x3d044b19, 0x39c556ae, 0x278206ab, 0x23431b1c, 0x2e003dc5, 0x2ac12072,
    0x128e9dcf, 0x164f8078, 0x1b0ca6a1, 0x1fcdbb16, 0x018aeb13, 0x054bf6a4, 0x0808d07d, 0x0cc9cdca,
    0x7897ab07, 0x7c56b6b0, 0x71159069, 0x75d48dde, 0x6b93dddb, 0x6f52c06c, 0x6211e6b5, 0x66d0fb02,
    0x5e9f46bf, 0x5a5e5b08, 0x571d7dd1, 0x53dc6066, 0x4d9b3063, 0x495a2dd4, 0x44190b0d, 0x40d816ba,
    0xaca5c697, 0xa864db20, 0xa527fdf9, 0xa1e6e04e, 0xbfa1b04b, 0xbb60adfc, 0xb6238b25, 0xb2e29692,
    0x8aad2b2f, 0x8e6c3698, 0x832f1041, 0x87ee0df6, 0x99a95df3, 0x9d684044, 0x902b669d, 0x94ea7b2a,
    0xe0b41de7, 0xe4750050, 0xe9362689, 0xedf73b3e, 0xf3b06b3b, 0xf771768c, 0xfa325055, 0xfef34de2,
    0xc6bcf05f, 0xc27dede8, 0xcf3ecb31, 0xcbffd686, 0xd5b88683, 0xd1799b34, 0xdc3abded, 0xd8fba05a,
    0x690ce0ee, 0x6dcdfd59, 0x608edb80, 0x644fc637, 0x7a089632, 0x7ec98b85, 0x738aad5c, 0x774bb0eb,
    0x4f040d56, 0x4bc510e1, 0x46863638, 0x42472b8f, 0x5c007b8a, 0x58c1663d, 0x558240e4, 0x51435d53,
    0x251d3b9e, 0x21dc2629, 0x2c9f00f0, 0x285e1d47, 0x36194d42, 0x32d850f5, 0x3f9b762c, 0x3b5a6b9b,
    0x0315d626, 0x07d4cb91, 0x0a97ed48, 0x0e56f0ff, 0x1011a0fa, 0x14d0bd4d, 0x19939b94, 0x1d528623,
    0xf12f560e, 0xf5ee4bb9, 0xf8ad6d60, 0xfc6c70d7, 0xe22b20d2, 0xe6ea3d65, 0xeba91bbc, 0xef68060b,
    0xd727bbb6, 0xd3e6a601, 0xdea580d8, 0xda649d6f, 0xc423cd6a, 0xc0e2d0dd, 0xcda1f604, 0xc960ebb3,
    0xbd3e8d7e, 0xb9ff90c9, 0xb4bcb610, 0xb07daba7, 0xae3afba2, 0xaafbe615, 0xa7b8c0cc, 0xa379dd7b,
    0x9b3660c6, 0x9ff77d71, 0x92b45ba8, 0x9675461f, 0x8832161a, 0x8cf30bad, 0x81b02d74, 0x857130c3,
    0x5d8a9099, 0x594b8d2e, 0x5408abf7, 0x50c9b640, 0x4e8ee645, 0x4a4ffbf2, 0x470cdd2b, 0x43cdc09c,
    0x7b827d21, 0x7f436096, 0x7200464f, 0x76c15bf8, 0x68860bfd, 0x6c47164a, 0x61043093, 0x65c52d24,
    0x119b4be9, 0x155a565e, 0x18197087, 0x1cd86d30, 0x029f3d35, 0x065e2082, 0x0b1d065b, 0x0fdc1bec,
    0x3793a651, 0x3352bbe6, 0x3e119d3f, 0x3ad08088, 0x2497d08d, 0x2056cd3a, 0x2d15ebe3, 0x29d4f654,
    0xc5a92679, 0xc1683bce, 0xcc2b1d17, 0xc8ea00a0, 0xd6ad50a5, 0xd26c4d12, 0xdf2f6bcb, 0xdbee767c,
    0xe3a1cbc1, 0xe760d676, 0xea23f0af, 0xeee2ed18, 0xf0a5bd1d, 0xf464a0aa, 0xf9278673, 0xfde69bc4,
    0x89b8fd09, 0x8d79e0be, 0x803ac667, 0x84fbdbd0, 0x9abc8bd5, 0x9e7d9662, 0x933eb0bb, 0x97ffad0c,
    0xafb010b1, 0xab710d06, 0xa6322bdf, 0xa2f33668, 0xbcb4666d, 0xb8757bda, 0xb5365d03, 0xb1f740b4]

/-- `ts_psi_crc`. -/
def crc (data : List UInt8) : BitVec 32 :=
  data.foldl (fun crc byte =>
    (crc <<< 8) ^^^ crcTable[((crc >>> 24) ^^^ BitVec.ofNat 32 byte.toNat).toNat]?.getD 0) 0xffffffff

def construct : TsPsi := {}

def destruct (_ : TsPsi) : TsPsi := {}

/-- The first word of a section. -/
def lengthWord (sectionLength : Int) : Nat :=
  writeBits 0x01 16 0 1 |||
  writeBits 0x00 16 1 1 |||
  writeBits 0x03 16 2 2 |||
  writeBits 0x00 16 4 2 |||
  writeBits (uint64OfInt sectionLength) 16 6 10

/-- The byte with the version. -/
def versionByte (psi : TsPsi) : Nat :=
  writeBits 0x03 8 0 2 |||
  writeBits psi.version.toNat 8 2 5 |||
  writeBits psi.current.toNat 8 7 1

/-- The loop that writes `0xff` up to the end of the packet. On a stream with a buffer it is
done after fewer than 188 turns; `none` is the endless loop on any other. -/
def pad : Nat → Bytestream → Option Bytestream
  | 0, _ => none
  | turns + 1, s => if (s.size + 4) % 188 = 0 then some s else pad turns (s.write8 0xff)

def packStream (psi : TsPsi) (s data : Bytestream) : Option (Int × Bytestream) :=
  let size := s.size
  let sectionLength := intOfSize (data.size + 9)
  if sectionLength > 1021 then some (-1, s)
  else
    let s := s.write8 psi.id.toNat
    let s := s.write16 (lengthWord sectionLength)
    let s := s.write16 psi.idExtension.toNat
    let s := s.write8 psi.versionByte
    let s := s.write8 psi.sectionNumber.toNat
    let s := s.write8 psi.lastSectionNumber.toNat
    let s := s.write ((data.bytestreamData.getD []).take data.size)
    let crc := crc (((s.bytestreamData.getD []).drop size).take (s.size - size))
    let s := s.write32 crc.toNat
    (pad 188 s).map fun s => (s.result, s)

/-- The end of `unpackStream`, after the length was accepted. -/
def unpackFields (psi : TsPsi) (s : Bytestream) : Int × TsPsi × Bytestream :=
  let (idExtension, s) := s.read16
  let psi := { psi with idExtension := UInt16.ofNat idExtension }
  let (v, s) := s.read8
  if readBits v 8 0 2 ≠ 0x03 then (-1, psi, s)
  else
    let psi := { psi with version := BitVec.ofNat 5 (readBits v 8 2 5), current := flag (readBits v 8 7 1) }
    let (sectionNumber, s) := s.read8
    let (lastSectionNumber, s) := s.read8
    (if s.valid then 1 else 0,
      { psi with
        sectionNumber := UInt8.ofNat sectionNumber
        lastSectionNumber := UInt8.ofNat lastSectionNumber },
      s)

/-- The section length of `unpackStream`, in the word `v`. -/
def unpackLength (psi : TsPsi) (v : Nat) (s : Bytestream) : Int × TsPsi × Bytestream :=
  if readBits v 16 0 1 ≠ 0x01 ∨ readBits v 16 1 1 ≠ 0x00 ∨ readBits v 16 2 2 ≠ 0x03 ∨ readBits v 16 4 2 ≠ 0x00 then
    (-1, psi, s)
  else
    let psi := { psi with sectionLength := BitVec.ofNat 10 (readBits v 16 6 10) }
    if psi.sectionLength.toNat < 9 then (-1, psi, s)
    else if s.size < psi.sectionLength.toNat then (0, psi, s)
    else psi.unpackFields s

def unpackStream (psi : TsPsi) (s : Bytestream) : Int × TsPsi × Bytestream :=
  let (id, s) := s.read8
  let psi := { psi with id := UInt8.ofNat id }
  if psi.id = 0xff then (1, psi, s)
  else
    let (v, s) := s.read16
    if !s.valid then (0, psi, s) else psi.unpackLength v s

def constructStream (s : Bytestream) : Int × TsPsi × Bytestream :=
  let (n, psi, s) := construct.unpackStream s
  (n, if n ≤ 0 then psi.destruct else psi, s)

def pointerPack (s : Bytestream) : Int × Bytestream :=
  let s := s.write8 0
  (s.result, s)

def pointerUnpack (s : Bytestream) : Int × Bytestream :=
  let (size, s) := s.read8
  let s := s.skip size
  (if s.valid then 1 else 0, s)

/-! ## What the encoder writes -/

/-- The section around the data `l`, without its checksum. -/
def body (psi : TsPsi) (l : List UInt8) : List UInt8 :=
  BigEndian.bytes 1 psi.id.toNat ++ BigEndian.bytes 2 (lengthWord (intOfSize (l.length + 9))) ++
    BigEndian.bytes 2 psi.idExtension.toNat ++ BigEndian.bytes 1 psi.versionByte ++
    BigEndian.bytes 1 psi.sectionNumber.toNat ++ BigEndian.bytes 1 psi.lastSectionNumber.toNat ++ l

/-- The section. -/
def sectionBytes (psi : TsPsi) (l : List UInt8) : List UInt8 :=
  psi.body l ++ BigEndian.bytes 4 (crc (psi.body l)).toNat

theorem length_sectionBytes (psi : TsPsi) (l : List UInt8) : (psi.sectionBytes l).length = 8 + l.length + 4 := by
  simp only [sectionBytes, body, List.length_append, BigEndian.length_bytes]

/-- How many bytes `pad` writes behind `size` bytes. -/
def padding (size : Nat) : Nat := (188 - (size + 4) % 188) % 188

theorem padding_lt (size : Nat) : padding size < 188 := Nat.mod_lt _ (by decide)

section Encoder

variable {b : Buffer} {k : Nat} (inside : k ≤ b.length)
include inside

theorem pad_reading {turns : Nat} (enough : padding (b.length - k) < turns) :
    pad turns (Bytestream.reading b k) =
      some (Bytestream.reading (b ++ List.replicate (padding (b.length - k)) 0xff) k) := by
  induction turns generalizing b with
  | zero => omega
  | succ turns ih =>
    have byte : BigEndian.bytes 1 0xff = [0xff] := rfl
    rw [pad, Bytestream.size_reading]
    split
    · rename_i whole
      have none : padding (b.length - k) = 0 := by
        unfold padding
        omega
      rw [none, List.replicate_zero, List.append_nil]
    · rename_i rest
      have longer : (b ++ [(0xff : UInt8)]).length = b.length + 1 := by rw [List.length_append, List.length_singleton]
      have step : padding (b.length - k) = padding ((b ++ [(0xff : UInt8)]).length - k) + 1 := by
        rw [longer]
        unfold padding
        omega
      rw [Bytestream.write8, byte, Bytestream.write_reading, ih (by omega) (by omega), step, List.append_assoc,
        List.replicate_succ]
      rfl

/-- The bytes written behind `b`. -/
theorem written (as : List UInt8) :
    (((Bytestream.reading (b ++ as) k).bytestreamData.getD []).drop (Bytestream.reading b k).size).take
      ((Bytestream.reading (b ++ as) k).size - (Bytestream.reading b k).size) = as := by
  have place : k + (b.length - k) = b.length := by omega
  have count : (b ++ as).length - k - (b.length - k) = as.length := by
    rw [List.length_append]
    omega
  rw [Bytestream.size_reading, Bytestream.size_reading, Bytestream.bytes_reading, List.drop_drop, place, count,
    List.drop_left, List.take_length]

/-- The whole effect of the encoder. -/
theorem packStream_reading (psi : TsPsi) {data : Bytestream} {l : List UInt8} (size : data.size = l.length)
    (bytes : (data.bytestreamData.getD []).take data.size = l) :
    psi.packStream (Bytestream.reading b k) data =
      if intOfSize (l.length + 9) > 1021 then some (-1, Bytestream.reading b k)
      else some (1, Bytestream.reading (b ++ psi.sectionBytes l ++
        List.replicate (padding ((b ++ psi.sectionBytes l).length - k)) 0xff) k) := by
  have whole : b ++ BigEndian.bytes 1 psi.id.toNat ++ BigEndian.bytes 2 (lengthWord (intOfSize (l.length + 9))) ++
      BigEndian.bytes 2 psi.idExtension.toNat ++ BigEndian.bytes 1 psi.versionByte ++
      BigEndian.bytes 1 psi.sectionNumber.toNat ++ BigEndian.bytes 1 psi.lastSectionNumber.toNat ++ l =
      b ++ psi.body l := by
    simp only [body, List.append_assoc]
  have valid : ∀ c : Buffer, (Bytestream.reading (b ++ psi.sectionBytes l ++ c) k).result = 1 := by
    intro c
    have filled : psi.sectionBytes l ++ c ≠ [] := by simp [sectionBytes, body, BigEndian.bytes]
    rw [List.append_assoc, ← Bytestream.write_reading]
    exact Bytestream.result_write rfl filled
  rw [size] at bytes
  rw [packStream]
  simp only [Bytestream.write8, Bytestream.write16, Bytestream.write32, Bytestream.write_reading, size, bytes,
    whole, written inside]
  split
  · rfl
  · have behind : k ≤ (b ++ psi.sectionBytes l).length := by
      rw [List.length_append]
      omega
    rw [List.append_assoc b, ← sectionBytes, pad_reading behind (padding_lt _), Option.map_some, valid]

end Encoder

theorem packStream_eq (psi : TsPsi) (b l : Buffer) :
    psi.packStream (Bytestream.constructBuffer b) (Bytestream.constructBuffer l) =
      if intOfSize (l.length + 9) > 1021 then some (-1, Bytestream.constructBuffer b)
      else some (1, Bytestream.constructBuffer (b ++ psi.sectionBytes l ++
        List.replicate (padding (b ++ psi.sectionBytes l).length) 0xff)) :=
  packStream_reading (Nat.zero_le b.length) psi rfl (Bytestream.bytes_constructBuffer l)

/-! ## What the decoder makes of it -/

theorem lengthWord_eq (n : Int) : lengthWord n = BitField.word [(1, 1), (0, 1), (3, 2), (0, 2), (uint64OfInt n, 10)] := by
  unfold lengthWord
  simp (disch := simp [BitField.width]) only [Nat.or_assoc, writeBits_last, writeBits_or_word]

theorem versionByte_eq (psi : TsPsi) :
    psi.versionByte = BitField.word [(3, 2), (psi.version.toNat, 5), (psi.current.toNat, 1)] := by
  unfold versionByte
  simp (disch := simp [BitField.width]) only [Nat.or_assoc, writeBits_last, writeBits_or_word]

theorem lengthWord_lt (n : Int) : lengthWord n < 2 ^ 16 := by
  rw [lengthWord_eq]
  exact BitField.word_lt _

theorem versionByte_lt (psi : TsPsi) : psi.versionByte < 2 ^ 8 := by
  rw [versionByte_eq]
  exact BitField.word_lt _

theorem length_lengthWord {n : Nat} (high : n < 2 ^ 10) : readBits (lengthWord n) 16 6 10 = n := by
  have low : readBits (lengthWord n) 16 6 10 = uint64OfInt n % 2 ^ 10 := by
    rw [lengthWord_eq]
    exact readBits_word [_, _, _, _] _ [] (by decide) rfl
  rw [low, uint64OfInt_of_lt (by omega), Nat.mod_eq_of_lt high]

/-- The length word passes the checks and carries the low bits of the length. -/
theorem unpackLength_lengthWord (psi : TsPsi) {n : Nat} (low : 9 ≤ n) (high : n < 2 ^ 10) (s : Bytestream)
    (there : n ≤ s.size) :
    psi.unpackLength (lengthWord n) s = { psi with sectionLength := BitVec.ofNat 10 n }.unpackFields s := by
  have field := length_lengthWord high
  have first : readBits (lengthWord n) 16 0 1 = 1 := by
    rw [lengthWord_eq]
    exact readBits_word [] _ [_, _, _, _] (by decide) rfl
  have second : readBits (lengthWord n) 16 1 1 = 0 := by
    rw [lengthWord_eq]
    exact readBits_word [_] _ [_, _, _] (by decide) rfl
  have third : readBits (lengthWord n) 16 2 2 = 3 := by
    rw [lengthWord_eq]
    exact readBits_word [_, _] _ [_, _] (by decide) rfl
  have fourth : readBits (lengthWord n) 16 4 2 = 0 := by
    rw [lengthWord_eq]
    exact readBits_word [_, _, _] _ [_] (by decide) rfl
  have length : (BitVec.ofNat 10 n).toNat = n := by
    rw [BitVec.toNat_ofNat, Nat.mod_eq_of_lt high]
  have checks : ¬ (readBits (lengthWord n) 16 0 1 ≠ 0x01 ∨ readBits (lengthWord n) 16 1 1 ≠ 0x00 ∨
      readBits (lengthWord n) 16 2 2 ≠ 0x03 ∨ readBits (lengthWord n) 16 4 2 ≠ 0x00) := by
    rw [first, second, third, fourth]
    decide
  rw [unpackLength, if_neg checks, field]
  simp only [length]
  rw [if_neg (by omega), if_neg (by omega)]

section Unpack

variable {s : Bytestream} {l rest : List UInt8} {psi : TsPsi}

/-- The fields behind the length. -/
theorem unpackFields_bytes (old : TsPsi)
    (h : s.Holds (BigEndian.bytes 2 psi.idExtension.toNat ++ (BigEndian.bytes 1 psi.versionByte ++
      (BigEndian.bytes 1 psi.sectionNumber.toNat ++ (BigEndian.bytes 1 psi.lastSectionNumber.toNat ++ rest))))) :
    old.unpackFields s =
      (1, { psi with id := old.id, sectionLength := old.sectionLength }, s.skip 5) := by
  have h1 := h.skip_append (BigEndian.length_bytes 2 _)
  have h2 := h1.skip_append (BigEndian.length_bytes 1 _)
  have h3 := h2.skip_append (BigEndian.length_bytes 1 _)
  have h4 := h3.skip_append (BigEndian.length_bytes 1 _)
  have reserved : readBits psi.versionByte 8 0 2 = 3 := by
    rw [versionByte_eq]
    exact readBits_word [] _ [_, _] (by decide) rfl
  have version : BitVec.ofNat 5 (readBits psi.versionByte 8 2 5) = psi.version := by
    have field : readBits psi.versionByte 8 2 5 = psi.version.toNat % 2 ^ 5 := by
      rw [versionByte_eq]
      exact readBits_word [_] _ [_] (by decide) rfl
    rw [field, Nat.mod_eq_of_lt psi.version.isLt, BitVec.ofNat_toNat, BitVec.setWidth_eq]
  have current : flag (readBits psi.versionByte 8 7 1) = psi.current := by
    have field : readBits psi.versionByte 8 7 1 = psi.current.toNat % 2 ^ 1 := by
      rw [versionByte_eq]
      exact readBits_word [_, _] _ [] (by decide) rfl
    rw [field, flag_toNat_mod]
  have passes : ¬ readBits psi.versionByte 8 0 2 ≠ 0x03 := fun other => other reserved
  have byte : ∀ b : UInt8, b.toNat % 2 ^ 8 = b.toNat := fun b => Nat.mod_eq_of_lt b.toNat_lt
  have extension : psi.idExtension.toNat % 2 ^ 16 = psi.idExtension.toNat := Nat.mod_eq_of_lt psi.idExtension.toNat_lt
  simp only [unpackFields, h.read16_bytes, h1.read8_bytes, h2.read8_bytes, h3.read8_bytes,
    Nat.mod_eq_of_lt psi.versionByte_lt, byte, extension, if_neg passes, version, current, UInt8.ofNat_toNat,
    UInt16.ofNat_toNat, h4.isValid, if_true]
  simp only [Bytestream.skip_skip]

/-- The header of a section that was written, with the data behind it still in the stream. -/
theorem unpackStream_section (h : s.Holds (psi.sectionBytes l ++ rest)) (named : psi.id ≠ 0xff)
    (high : l.length + 9 < 2 ^ 10) :
    construct.unpackStream s = (1, { psi with sectionLength := BitVec.ofNat 10 (l.length + 9) }, s.skip 8) ∧
      (s.skip 8).Holds (l ++ (BigEndian.bytes 4 (crc (psi.body l)).toNat ++ rest)) := by
  simp only [sectionBytes, body, List.append_assoc] at h
  have h1 := h.skip_append (BigEndian.length_bytes 1 _)
  have h2 := h1.skip_append (BigEndian.length_bytes 2 _)
  have h3 := h2.skip_append (BigEndian.length_bytes 2 _)
  have h4 := h3.skip_append (BigEndian.length_bytes 1 _)
  have h5 := h4.skip_append (BigEndian.length_bytes 1 _)
  have h6 := h5.skip_append (BigEndian.length_bytes 1 _)
  have byte : psi.id.toNat % 2 ^ 8 = psi.id.toNat := Nat.mod_eq_of_lt psi.id.toNat_lt
  have word : lengthWord (intOfSize (l.length + 9)) % 2 ^ 16 = lengthWord ((l.length + 9 : Nat) : Int) := by
    rw [Nat.mod_eq_of_lt (lengthWord_lt _), intOfSize_of_lt (by omega)]
  have there : l.length + 9 ≤ ((s.skip 1).skip 2).size := by
    rw [h2.sizeEq]
    simp only [List.length_append, BigEndian.length_bytes]
    omega
  have valid := h2.isValid
  have fields := unpackFields_bytes
    ({ construct with id := psi.id, sectionLength := BitVec.ofNat 10 (l.length + 9) } : TsPsi) h2
  have length := unpackLength_lengthWord { construct with id := psi.id } (by omega) high ((s.skip 1).skip 2) there
  simp only [Bytestream.skip_skip] at h6 fields length valid
  refine ⟨?_, h6⟩
  simp only [unpackStream, h.read8_bytes, h1.read16_bytes, byte, UInt8.ofNat_toNat, if_neg named, word,
    Bytestream.skip_skip, valid, Bool.not_true, Bool.false_eq_true, if_false, length, fields]

theorem constructStream_section (h : s.Holds (psi.sectionBytes l ++ rest)) (named : psi.id ≠ 0xff)
    (high : l.length + 9 < 2 ^ 10) :
    constructStream s = (1, { psi with sectionLength := BitVec.ofNat 10 (l.length + 9) }, s.skip 8) := by
  rw [constructStream, (unpackStream_section h named high).1]
  rfl

theorem pointerPack_constructBuffer (b : Buffer) :
    pointerPack (Bytestream.constructBuffer b) = (1, Bytestream.constructBuffer (b ++ [0])) := by
  have filled : b ++ [(0 : UInt8)] ≠ [] := by simp
  have byte : BigEndian.bytes 1 0 = [0] := rfl
  rw [pointerPack, Bytestream.write8, byte, Bytestream.write_constructBuffer]
  exact Prod.ext (Bytestream.holds_constructBuffer filled).result rfl

theorem pointerUnpack_zero (h : s.Holds (0 :: rest)) : pointerUnpack s = (1, s.skip 1) := by
  have next : (s.skip 1).Holds rest := h.skip_cons
  rw [pointerUnpack, h.read8]
  simp only [show (0 : UInt8).toNat = 0 from rfl, next.skip_zero, next.isValid, if_true]

end Unpack

end TsPsi
end Libts
