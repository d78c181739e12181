import Libts.Stream.Pes

/-!
# Decoding an encoded PES

What the encoder writes is a start code, a length and a body (`packStream_eq`). A time stamp
lies in the header in three pieces of 3, 15 and 15 bits, each closed by a marker bit, and is
put together again (`tsUnpack_stamp`). The decoder compares the length with what is left
of the unit before it looks at the body (`unpackStream_eq`).
-/

namespace Libts
set_option autoImplicit false

open CArith

namespace TsPes

/-! ## What the encoder writes -/

/-- The word of the start code and the stream identifier. -/
def startWord (p : TsPes) : Nat := BitField.word [(1, 24), (p.streamId.toNat, 8)]

/-- The first byte of a time stamp. -/
def stampHead (t : BitVec 64) (ptsIndicator dtsIndicator : Bool) : Nat :=
  BitField.word [(ptsIndicator.toNat, 1), (dtsIndicator.toNat, 1), ((t >>> 30).toNat, 3), (1, 1)]

/-- The rest of a time stamp. -/
def stampTail (t : BitVec 64) : Nat :=
  BitField.word [((t >>> 15).toNat, 15), (1, 1), (t.toNat, 15), (1, 1)]

/-- The bytes of a time stamp. -/
def stamp (t : BitVec 64) (ptsIndicator dtsIndicator : Bool) : List UInt8 :=
  BigEndian.bytes 1 (stampHead t ptsIndicator dtsIndicator) ++ BigEndian.bytes 4 (stampTail t)

/-- The flags of the header; the encoder leaves the fields it does not know at zero. -/
def flagsWord (p : TsPes) : Nat :=
  BitField.word [(2, 2), (0, 2), (0, 1), (p.dataAlignmentIndicator.toNat, 1), (0, 1), (0, 1),
    (p.ptsIndicator.toNat, 1), (p.dtsIndicator.toNat, 1), (0, 6)]

/-- The time stamps of the header. -/
def stamps (p : TsPes) : List UInt8 :=
  (if p.ptsIndicator then stamp p.pts p.ptsIndicator p.dtsIndicator else []) ++
    if p.dtsIndicator then stamp p.dts false p.dtsIndicator else []

def headerBytes (p : TsPes) : List UInt8 :=
  BigEndian.bytes 2 p.flagsWord ++ BigEndian.bytes 1 (p.headerSize - 3) ++ p.stamps

/-- The bytes behind the length field. -/
def body (p : TsPes) : List UInt8 := (if p.hasHeader then p.headerBytes else []) ++ p.data

/-- The length the encoder settles on, an `int`. -/
def settledLength (p : TsPes) : Int :=
  if p.isVideo ∧ intOfSize (p.headerSize + p.data.length) ≥ 65536 then 0
  else intOfSize (p.headerSize + p.data.length)

/-- The bytes of an encoding that is not refused. -/
def bytes (p : TsPes) : List UInt8 :=
  BigEndian.bytes 4 p.startWord ++ BigEndian.bytes 2 (uint64OfInt p.settledLength) ++ p.body

theorem length_stamp (t : BitVec 64) (ptsIndicator dtsIndicator : Bool) :
    (stamp t ptsIndicator dtsIndicator).length = 5 := by
  simp [stamp]

theorem length_stamps (p : TsPes) : p.stamps.length = p.headerSize - 3 := by
  unfold stamps headerSize
  cases p.ptsIndicator <;> cases p.dtsIndicator <;> simp [length_stamp]

theorem length_headerBytes (p : TsPes) : p.headerBytes.length = p.headerSize := by
  have least : 3 ≤ p.headerSize := by
    unfold headerSize
    omega
  simp only [headerBytes, List.length_append, BigEndian.length_bytes, length_stamps]
  omega

theorem length_body (p : TsPes) : p.body.length = (if p.hasHeader then p.headerSize else 0) + p.data.length := by
  unfold body
  rw [List.length_append]
  split
  · rw [length_headerBytes]
  · rfl

/-- The zero fields that `ts_pes_header_pack_stream` does not write are part of its word. -/
theorem flags_eq (p : TsPes) : writeBits 0x02 16 0 2 ||| writeBits p.dataAlignmentIndicator.toNat 16 5 1 |||
    writeBits p.ptsIndicator.toNat 16 8 1 ||| writeBits p.dtsIndicator.toNat 16 9 1 = p.flagsWord := by
  unfold flagsWord
  cases p.dataAlignmentIndicator <;> cases p.ptsIndicator <;> cases p.dtsIndicator <;> rfl

section Encoder

variable {s : Bytestream} (attached : s.attached = true)
include attached

theorem tsPack_eq (t : BitVec 64) (ptsIndicator dtsIndicator : Bool) (as : List UInt8) :
    tsPack t (s.write as) ptsIndicator dtsIndicator = s.write (as ++ stamp t ptsIndicator dtsIndicator) := by
  have head : writeBits ptsIndicator.toNat 8 2 1 ||| writeBits dtsIndicator.toNat 8 3 1 |||
      writeBits (t >>> 30).toNat 8 4 3 ||| writeBits 1 8 7 1 = stampHead t ptsIndicator dtsIndicator := by
    simp (disch := simp [BitField.width]) only [Nat.or_assoc, writeBits_last, writeBits_or_word]
    rfl
  have tail : writeBits (t >>> 15).toNat 32 0 15 ||| writeBits 1 32 15 1 ||| writeBits t.toNat 32 16 15 |||
      writeBits 1 32 31 1 = stampTail t := by
    simp (disch := simp [BitField.width]) only [Nat.or_assoc, writeBits_last, writeBits_or_word]
    rfl
  simp only [tsPack, head, tail, Bytestream.write8, Bytestream.write32, Bytestream.write_write attached, stamp,
    List.append_assoc]

theorem headerPackStream_eq (p : TsPes) (as : List UInt8) :
    p.headerPackStream (s.write as) = (1, s.write (as ++ p.headerBytes)) := by
  have stamped : ∀ (c : Bool) (t : BitVec 64) (ptsIndicator dtsIndicator : Bool) (bs : List UInt8),
      (if c then tsPack t (s.write bs) ptsIndicator dtsIndicator else s.write bs) =
        s.write (bs ++ if c then stamp t ptsIndicator dtsIndicator else []) := by
    intro c t ptsIndicator dtsIndicator bs
    rw [tsPack_eq attached]
    split
    · rfl
    · rw [List.append_nil]
  have valid : (s.write (as ++ p.headerBytes)).result = 1 := by
    apply Bytestream.result_write attached
    simp [headerBytes, BigEndian.bytes]
  have written : (p.headerPackStream (s.write as)).2 = s.write (as ++ p.headerBytes) := by
    simp only [headerPackStream, flags_eq, Bytestream.write16, Bytestream.write8, Bytestream.write_write attached,
      stamped, headerBytes, stamps, List.append_assoc]
  rw [← valid, ← written]
  rfl

/-- The whole effect of the encoder. -/
theorem packStream_eq (p : TsPes) :
    p.packStream s = if p.settledLength ≥ 65536 then (-1, s.write (BigEndian.bytes 4 p.startWord))
      else (1, s.write p.bytes) := by
  have start : writeBits 1 32 23 1 ||| writeBits p.streamId.toNat 32 24 8 = p.startWord := by
    simp (disch := simp [BitField.width]) only [writeBits_last, writeBits_or_word]
    rfl
  have header : ∀ as, (if p.hasHeader then p.headerPackStream (s.write as) else (1, s.write as)) =
      (1, s.write (as ++ if p.hasHeader then p.headerBytes else [])) := by
    intro as
    rw [headerPackStream_eq attached]
    split
    · rfl
    · rw [List.append_nil]
  have valid : (s.write p.bytes).result = 1 := by
    apply Bytestream.result_write attached
    simp [bytes, BigEndian.bytes]
  have accepted : ¬ (1 : Int) = -1 := by decide
  simp only [packStream, start, Bytestream.write32, Bytestream.write16, Bytestream.write_write attached, header,
    if_neg accepted]
  rw [show (if p.isVideo ∧ intOfSize (p.headerSize + p.data.length) ≥ 65536 then 0
    else intOfSize (p.headerSize + p.data.length)) = p.settledLength from rfl]
  split
  · rfl
  · rw [← valid]
    simp only [bytes, body, List.append_assoc]

end Encoder

/-! ## What the decoder makes of it -/

/-- The rest of a time stamp, a word for each of the two lower pieces. -/
theorem stampTail_bytes (t : BitVec 64) : BigEndian.bytes 4 (stampTail t) =
    BigEndian.bytes 2 (BitField.word [((t >>> 15).toNat, 15), (1, 1)]) ++
      BigEndian.bytes 2 (BitField.word [(t.toNat, 15), (1, 1)]) := by
  have words : stampTail t = BitField.word [((t >>> 15).toNat, 15), (1, 1)] * 256 ^ 2 +
      BitField.word [(t.toNat, 15), (1, 1)] := BitField.word_append [_, _] [_, _]
  have high : BitField.word [((t >>> 15).toNat, 15), (1, 1)] < 256 ^ 2 := BitField.word_lt _
  have low : BitField.word [(t.toNat, 15), (1, 1)] < 256 ^ 2 := BitField.word_lt _
  rw [words, BigEndian.bytes_append high low]

/-- The three pieces of a number below `2 ^ 33`. -/
theorem pieces_eq {t : BitVec 64} (clock : t.toNat < 2 ^ 33) :
    ((BitVec.ofNat 64 ((t >>> 30).toNat % 2 ^ 3) <<< 15) + BitVec.ofNat 64 ((t >>> 15).toNat % 2 ^ 15)) <<< 15 +
      BitVec.ofNat 64 (t.toNat % 2 ^ 15) = t := by
  apply BitVec.eq_of_toNat_eq
  simp only [BitVec.toNat_add, BitVec.toNat_shiftLeft, BitVec.toNat_ofNat, BitVec.toNat_ushiftRight,
    Nat.shiftLeft_eq, Nat.shiftRight_eq_div_pow]
  omega

section Decoder

variable {s : Bytestream} {rest : List UInt8}

/-- A time stamp is put together from its three pieces. -/
theorem tsUnpack_stamp {t : BitVec 64} (clock : t.toNat < 2 ^ 33) (ptsIndicator dtsIndicator : Bool)
    (h : s.Holds (stamp t ptsIndicator dtsIndicator ++ rest)) : tsUnpack s = (1, t, s.skip 5) := by
  have headBound : stampHead t ptsIndicator dtsIndicator < 2 ^ 8 :=
    Nat.lt_trans (BitField.word_lt _) (show 2 ^ 6 < 2 ^ 8 by decide)
  have highBound : BitField.word [((t >>> 15).toNat, 15), (1, 1)] < 2 ^ 16 := BitField.word_lt _
  have lowBound : BitField.word [(t.toNat, 15), (1, 1)] < 2 ^ 16 := BitField.word_lt _
  have head : readBits (stampHead t ptsIndicator dtsIndicator) 8 4 3 = (t >>> 30).toNat % 2 ^ 3 :=
    readBits_word [_, _] _ [_] (by decide) rfl
  have high : readBits (BitField.word [((t >>> 15).toNat, 15), (1, 1)]) 16 0 15 = (t >>> 15).toNat % 2 ^ 15 :=
    readBits_word [] _ [_] (by decide) rfl
  have low : readBits (BitField.word [(t.toNat, 15), (1, 1)]) 16 0 15 = t.toNat % 2 ^ 15 :=
    readBits_word [] _ [_] (by decide) rfl
  rw [stamp, stampTail_bytes, List.append_assoc, List.append_assoc] at h
  have h1 := h.skip_append (BigEndian.length_bytes 1 _)
  have h3 := h1.skip_append (BigEndian.length_bytes 2 _)
  have h5 := h3.skip_append (BigEndian.length_bytes 2 _)
  rw [Bytestream.skip_skip] at h3 h5
  rw [Bytestream.skip_skip] at h5
  simp only [tsUnpack, h.read8_bytes, h1.read16_bytes, Bytestream.skip_skip, h3.read16_bytes, h5.result,
    Nat.mod_eq_of_lt headBound, Nat.mod_eq_of_lt highBound, Nat.mod_eq_of_lt lowBound, head, high, low, pieces_eq clock]

/-- The check of the length against what is left of the unit. -/
def LengthWrong (streamId : UInt8) (len size : Nat) : Prop :=
  (!({ streamId := streamId } : TsPes).isVideo ∧ len = 0) ∨ (len ≠ 0 ∧ len ≠ size)

instance (streamId : UInt8) (len size : Nat) : Decidable (LengthWrong streamId len size) :=
  inferInstanceAs (Decidable ((_ ∧ _) ∨ (_ ∧ _)))

/-- The decoder behind the check of the length. -/
def unpackBody (p : TsPes) (s : Bytestream) : Int × TsPes × Bytestream :=
  let (n, p, s) := if p.hasHeader then p.unpackHeader s else (1, p, s)
  if n = -1 ∨ !s.valid then (-1, p, s)
  else (1, { p with data := (s.bytestreamData.getD []).take s.size }, s)

/-- The stream identifier the decoder reads. -/
def readStreamId (s : Bytestream) : UInt8 :=
  UInt8.ofNat (readBits (uint64OfInt (intOfSize s.read32.1)) 32 24 8)

/-- The decoder refuses the length of the unit. -/
def LengthRefused (s : Bytestream) : Prop :=
  LengthWrong (readStreamId s) (s.skip 4).read16.1 (s.skip 6).size

instance (s : Bytestream) : Decidable (LengthRefused s) := inferInstanceAs (Decidable (LengthWrong _ _ _))

theorem unpackStream_eq (p : TsPes) (s : Bytestream) :
    p.unpackStream s =
      if readBits (uint64OfInt (intOfSize s.read32.1)) 32 0 24 ≠ 0x000001 then (-1, p, s.skip 4)
      else if LengthRefused s then (-1, { p with streamId := readStreamId s }, s.skip 6)
      else { p with streamId := readStreamId s }.unpackBody (s.skip 6) := by
  have length : (s.skip 4).skip 2 = s.skip 6 := s.skip_skip 4 2
  simp only [LengthRefused, ← length]
  rfl

section Start

variable {p : TsPes} {len : Nat} (h : s.Holds (BigEndian.bytes 4 p.startWord ++ (BigEndian.bytes 2 len ++ rest)))
  (small : len < 2 ^ 16)
include h

theorem holds_body : (s.skip 6).Holds rest := by
  have tail := (h.skip_append (BigEndian.length_bytes 4 _)).skip_append (BigEndian.length_bytes 2 _)
  rwa [Bytestream.skip_skip] at tail

theorem read32_start : s.read32.1 = p.startWord := by
  have word : p.startWord < 2 ^ 32 := BitField.word_lt _
  rw [h.read32_bytes]
  exact Nat.mod_eq_of_lt word

theorem readStreamId_start : readStreamId s = p.streamId := by
  have word : p.startWord < 2 ^ 32 := BitField.word_lt _
  have field : readBits p.startWord 32 24 8 = p.streamId.toNat % 2 ^ 8 := readBits_word [_] _ [] (by decide) rfl
  rw [readStreamId, read32_start h, readBits_int word (by decide) (by decide), field,
    Nat.mod_eq_of_lt p.streamId.toNat_lt, UInt8.ofNat_toNat]

theorem startCode_start : readBits (uint64OfInt (intOfSize s.read32.1)) 32 0 24 = 0x000001 := by
  have word : p.startWord < 2 ^ 32 := BitField.word_lt _
  have field : readBits p.startWord 32 0 24 = 1 := readBits_word [] _ [_] (by decide) rfl
  rw [read32_start h, readBits_int word (by decide) (by decide), field]

include small

/-- The check of the length on a unit that the encoder wrote. -/
theorem lengthRefused_start : LengthRefused s ↔ LengthWrong p.streamId len rest.length := by
  have field := h.skip_append (BigEndian.length_bytes 4 _)
  rw [LengthRefused, readStreamId_start h, field.read16_bytes, Nat.mod_eq_of_lt small, (holds_body h).sizeEq]

end Start

/-- A time stamp of the header is read back, and its five bytes are taken off the header length. -/
theorem unpackTimestamp_stamp {wanted : Bool} {t : BitVec 64} {ptsIndicator dtsIndicator : Bool} (old : BitVec 64)
    (len : Nat) (clock : t.toNat < 2 ^ 33) (enough : (if wanted then 5 else 0) ≤ len)
    (h : s.Holds ((if wanted then stamp t ptsIndicator dtsIndicator else []) ++ rest)) :
    unpackTimestamp wanted old len s =
      (1, if wanted then t else old, len - (if wanted then 5 else 0), s.skip (if wanted then 5 else 0)) := by
  cases wanted
  · simp [unpackTimestamp, h.skip_zero]
  · rw [if_pos rfl] at enough
    have valid := (h.skip_append (length_stamp t ptsIndicator dtsIndicator)).isValid
    have long : ¬ len < 5 := by omega
    simp [unpackTimestamp, tsUnpack_stamp clock _ _ h, valid, long]

end Decoder

/-- What the encoder keeps of a PES: the other bits of the header are not written. -/
def carried (p : TsPes) : TsPes :=
  { construct with
    streamId := p.streamId, dataAlignmentIndicator := p.dataAlignmentIndicator, ptsIndicator := p.ptsIndicator,
    dtsIndicator := p.dtsIndicator, pts := p.pts, dts := p.dts, data := p.data }

/-- A PES with a header whose time stamps have 33 bits and are zero when they are not indicated. -/
structure Encodable (p : TsPes) : Prop where
  padding : p.streamId ≠ 0xbe
  private2 : p.streamId ≠ 0xbf
  pts : p.pts.toNat < 2 ^ 33
  dts : p.dts.toNat < 2 ^ 33
  noPts : p.ptsIndicator = false → p.pts = 0
  noDts : p.dtsIndicator = false → p.dts = 0

section RoundTrip

variable {s : Bytestream} {rest : List UInt8} {p : TsPes}

/-- The flags are read back; those that are not written read as zero. -/
theorem setFlags_flagsWord (p : TsPes) :
    ({ streamId := p.streamId } : TsPes).setFlags p.flagsWord =
      { streamId := p.streamId, dataAlignmentIndicator := p.dataAlignmentIndicator,
        ptsIndicator := p.ptsIndicator, dtsIndicator := p.dtsIndicator } := by
  have field : ∀ (fs gs : List (Nat × Nat)) (b : Bool) (offset : Nat),
      [(2, 2), (0, 2), (0, 1), (p.dataAlignmentIndicator.toNat, 1), (0, 1), (0, 1), (p.ptsIndicator.toNat, 1),
        (p.dtsIndicator.toNat, 1), (0, 6)] = fs ++ (b.toNat, 1) :: gs → 16 - offset - 1 = BitField.width gs →
      flag (readBits p.flagsWord 16 offset 1) = b := by
    intro fs gs b offset parts place
    rw [flagsWord, parts, readBits_word _ _ _ (by decide) place, flag_toNat_mod]
  have scrambling : readBits p.flagsWord 16 2 2 = 0 := readBits_word [_] _ [_, _, _, _, _, _, _] (by decide) rfl
  unfold setFlags
  rw [scrambling, field [_, _] _ false 4 rfl rfl, field [_, _, _] _ _ 5 rfl rfl, field [_, _, _, _] _ false 6 rfl rfl,
    field [_, _, _, _, _] _ false 7 rfl rfl, field [_, _, _, _, _, _] _ _ 8 rfl rfl,
    field [_, _, _, _, _, _, _] _ _ 9 rfl rfl]
  rfl

/-- The header is read back from the bytes the encoder wrote. -/
theorem Encodable.unpackHeader (encodable : p.Encodable) (h : s.Holds (p.headerBytes ++ rest)) :
    ({ streamId := p.streamId } : TsPes).unpackHeader s = (1, { p.carried with data := [] }, s.skip p.headerSize) := by
  have word : p.flagsWord < 2 ^ 16 := BitField.word_lt _
  have marker : readBits p.flagsWord 16 0 2 = 2 := readBits_word [] _ [_, _, _, _, _, _, _, _] (by decide) rfl
  have size : p.headerSize - 3 = (if p.ptsIndicator then 5 else 0) + if p.dtsIndicator then 5 else 0 := by
    unfold headerSize
    omega
  have byte : p.headerSize - 3 < 2 ^ 8 := by
    rw [size]
    split <;> split <;> omega
  rw [headerBytes, List.append_assoc, List.append_assoc, stamps, List.append_assoc] at h
  have h2 := h.skip_append (BigEndian.length_bytes 2 _)
  have h3 := h2.skip_append (BigEndian.length_bytes 1 _)
  rw [Bytestream.skip_skip] at h3
  have width : ∀ (c : Bool) (t : BitVec 64) (a b : Bool), (if c then stamp t a b else []).length = if c then 5 else 0 := by
    intro c t a b
    cases c
    · rfl
    · exact length_stamp t a b
  have h4 := h3.skip_append (width _ _ _ _)
  have pts : (if p.ptsIndicator then p.pts else 0) = p.pts := by
    split
    · rfl
    · rename_i absent
      exact (encodable.noPts (Bool.eq_false_iff.mpr absent)).symm
  have dts : (if p.dtsIndicator then p.dts else 0) = p.dts := by
    split
    · rfl
    · rename_i absent
      exact (encodable.noDts (Bool.eq_false_iff.mpr absent)).symm
  have first := unpackTimestamp_stamp 0 (p.headerSize - 3) encodable.pts (by omega) h3
  have second := unpackTimestamp_stamp 0 (p.headerSize - 3 - if p.ptsIndicator then 5 else 0) encodable.dts (by omega) h4
  have left : p.headerSize - 3 - (if p.ptsIndicator then 5 else 0) - (if p.dtsIndicator then 5 else 0) = 0 := by omega
  rw [pts] at first
  rw [dts, left] at second
  simp only [TsPes.unpackHeader, h.read16_bytes, Nat.mod_eq_of_lt word, marker, setFlags_flagsWord, h2.read8_bytes,
    Nat.mod_eq_of_lt byte, Bytestream.skip_skip s 2, first]
  have two : ¬ 2 ≠ 2 := by decide
  have accepted : ¬ (1 : Int) = -1 := by decide
  have total : 2 + 1 + (if p.ptsIndicator then 5 else 0) + (if p.dtsIndicator then 5 else 0) = p.headerSize := rfl
  rw [if_neg two, if_neg accepted, second, if_neg accepted]
  simp only [Bytestream.skip_skip, total]
  rfl

theorem Encodable.hasHeader (encodable : p.Encodable) : p.hasHeader = true := by
  simp [TsPes.hasHeader, encodable.padding, encodable.private2]

/-- The body is read back, up to the end of the unit. -/
theorem Encodable.unpackBody (encodable : p.Encodable) (h : s.Holds p.body) :
    ({ streamId := p.streamId } : TsPes).unpackBody s = (1, p.carried, s.skip p.headerSize) := by
  have has := encodable.hasHeader
  rw [body, if_pos has] at h
  have data := h.skip_append (length_headerBytes p)
  have whole : ((s.skip p.headerSize).bytestreamData.getD []).take (s.skip p.headerSize).size = p.data :=
    data.rest
  have valid : ¬ ((1 : Int) = -1 ∨ (!(s.skip p.headerSize).valid) = true) := by
    rw [data.isValid]
    decide
  rw [TsPes.unpackBody, if_pos (by exact has), encodable.unpackHeader h]
  simp only [if_neg valid, whole]
  rfl

end RoundTrip

/-- The length of an encoding that is not refused: exact, or left open for a video stream. -/
theorem settledLength_cases {p : TsPes} (small : p.headerSize + p.data.length < 2 ^ 31)
    (fits : ¬ p.settledLength ≥ 65536) :
    (p.settledLength = (p.headerSize + p.data.length : Nat) ∧ p.headerSize + p.data.length < 65536) ∨
      p.settledLength = 0 ∧ p.isVideo = true := by
  have exact' := intOfSize_of_lt small
  unfold settledLength at fits ⊢
  rw [exact'] at fits ⊢
  split at fits
  · rename_i video
    right
    exact ⟨if_pos video, video.1⟩
  · rename_i long
    left
    exact ⟨if_neg long, by omega⟩

/-- What `packBuffer` leaves in an empty buffer when it does not refuse. -/
theorem packBuffer_eq {p : TsPes} (packed : (p.packBuffer []).1 = 1) :
    ¬ p.settledLength ≥ 65536 ∧ (p.packBuffer []).2 = p.bytes := by
  have encoded := packStream_eq (s := Bytestream.constructBuffer []) rfl p
  by_cases long : p.settledLength ≥ 65536
  · rw [if_pos long] at encoded
    simp only [packBuffer, encoded] at packed
    contradiction
  · rw [if_neg long] at encoded
    simp only [packBuffer, encoded]
    exact ⟨long, Bytestream.store_write rfl p.bytes⟩

/-- The decoder on an encoded body behind any length. -/
theorem Encodable.unpackStream_length {p : TsPes} (encodable : p.Encodable) {len : Nat} (small : len < 2 ^ 16)
    {s : Bytestream} (h : s.Holds (BigEndian.bytes 4 p.startWord ++ BigEndian.bytes 2 len ++ p.body)) :
    construct.unpackStream s =
      if LengthWrong p.streamId len p.body.length then (-1, { construct with streamId := p.streamId }, s.skip 6)
      else (1, p.carried, s.skip (6 + p.headerSize)) := by
  rw [List.append_assoc] at h
  have started : ¬ readBits (uint64OfInt (intOfSize s.read32.1)) 32 0 24 ≠ 0x000001 :=
    not_not_intro (startCode_start h)
  have decoded : ({ construct with streamId := p.streamId } : TsPes).unpackBody (s.skip 6) = _ :=
    encodable.unpackBody (holds_body h)
  rw [unpackStream_eq, if_neg started, readStreamId_start h, decoded, Bytestream.skip_skip]
  simp only [lengthRefused_start h small]

/-- The decoder on a unit that the encoder wrote. -/
theorem Encodable.unpackStream {p : TsPes} (encodable : p.Encodable) (small : p.data.length < 2 ^ 31 - 13)
    (fits : ¬ p.settledLength ≥ 65536) {s : Bytestream} (h : s.Holds p.bytes) :
    construct.unpackStream s = (1, p.carried, s.skip (6 + p.headerSize)) := by
  have header : 3 ≤ p.headerSize ∧ p.headerSize ≤ 13 := by
    unfold headerSize
    split <;> split <;> omega
  have length := length_body p
  rw [if_pos encodable.hasHeader] at length
  have field : uint64OfInt p.settledLength < 2 ^ 16 ∧
      ¬ LengthWrong p.streamId (uint64OfInt p.settledLength) p.body.length := by
    rcases settledLength_cases (by omega) fits with ⟨exact', short⟩ | ⟨zero, video⟩
    · rw [exact', uint64OfInt_of_lt (by omega)]
      refine ⟨short, ?_⟩
      rintro (⟨-, zero⟩ | ⟨-, other⟩) <;> omega
    · have unset : uint64OfInt 0 = 0 := rfl
      rw [zero, unset]
      refine ⟨by decide, ?_⟩
      rintro (⟨other, -⟩ | ⟨other, -⟩)
      · rw [show ({ streamId := p.streamId } : TsPes).isVideo = p.isVideo from rfl, video] at other
        contradiction
      · contradiction
  rw [encodable.unpackStream_length field.1 h, if_neg field.2]

/-- **A PES that was encoded is decoded** to its time stamps and its payload, with an exact
or an open length. -/
theorem unpackBuffer_packBuffer {p : TsPes} (encodable : p.Encodable) (small : p.data.length < 2 ^ 31 - 13)
    (packed : (p.packBuffer []).1 = 1) : construct.unpackBuffer (p.packBuffer []).2 = (1, p.carried) := by
  obtain ⟨fits, written⟩ := packBuffer_eq packed
  have nonempty : p.bytes ≠ [] := by simp [bytes, BigEndian.bytes]
  have decoded := encodable.unpackStream small fits (Bytestream.holds_constructBuffer nonempty)
  rw [written, unpackBuffer, decoded]

/-- A video PES with a time stamp of 33 bits. -/
theorem unpackBuffer_packBuffer_video :
    construct.unpackBuffer
        (({ streamId := 0xe0, ptsIndicator := true, pts := 0x123456789, data := [1] } : TsPes).packBuffer []).2 =
      (1, ({ streamId := 0xe0, ptsIndicator := true, pts := 0x123456789, data := [1] } : TsPes).carried) :=
  unpackBuffer_packBuffer ⟨by decide, by decide, by decide, by decide, by decide, by decide⟩ (by decide)
    (by decide +kernel)

end TsPes
end Libts
