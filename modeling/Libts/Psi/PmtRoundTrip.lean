import Libts.Psi.PmtGrammar

/-!
# Decoding an encoded program map

The encoder writes the section length from a `size_t` through an `int`: a section too long
is refused as long as the `int` is not negative (`packBuffer_eq`). A section that is not too
long is read back (`unpackBuffer_packetBytes`), stream by stream up to its length.
-/

namespace Libts
set_option autoImplicit false

open CArith

namespace TsPmtDescriptor

/-- The bytes of a descriptor. -/
def bytes (d : TsPmtDescriptor) : List UInt8 :=
  if d.tag ≠ 0 then BigEndian.bytes 1 d.tag.toNat ++ (BigEndian.bytes 1 d.data.size ++ d.data.data) else []

/-- The word in front of a descriptor loop. -/
def infoWord (d : TsPmtDescriptor) (pid : BitVec 13) : Nat :=
  BitField.word [(7, 3), (pid.toNat, 13), (15, 4), (0, 2), (d.size, 10)]

/-- The bytes of a PID with its descriptor loop. -/
def infoBytes (d : TsPmtDescriptor) (pid : BitVec 13) : List UInt8 := BigEndian.bytes 4 (d.infoWord pid) ++ d.bytes

/-- A descriptor that is absent has no data. -/
def Plain (d : TsPmtDescriptor) : Prop := d.tag = 0 → d.data = default

instance (d : TsPmtDescriptor) : Decidable d.Plain := inferInstanceAs (Decidable (d.tag = 0 → d.data = default))

theorem Plain.eq_default {d : TsPmtDescriptor} (plain : d.Plain) (absent : d.tag = 0) : d = {} := by
  have data := plain absent
  obtain ⟨tag, data⟩ := d
  subst absent
  subst data
  rfl

variable {d : TsPmtDescriptor}

theorem length_bytes (d : TsPmtDescriptor) : d.bytes.length = d.size := by
  unfold bytes size
  split
  · simp only [List.length_append, BigEndian.length_bytes, Block.size]
    omega
  · rfl

theorem size_le (d : TsPmtDescriptor) : d.size ≤ 257 := by
  have fits := d.data.fits
  unfold size Block.size
  split <;> omega

/-- The two words the encoder writes are one. -/
theorem words_eq (d : TsPmtDescriptor) (pid : BitVec 13) :
    BigEndian.bytes 2 (writeBits 0x07 16 0 3 ||| writeBits pid.toNat 16 3 13) ++
      BigEndian.bytes 2 (writeBits 0x0f 16 0 4 ||| writeBits 0 16 4 2 ||| writeBits d.size 16 6 10) =
      BigEndian.bytes 4 (d.infoWord pid) := by
  have first : writeBits 0x07 16 0 3 ||| writeBits pid.toNat 16 3 13 = BitField.word [(7, 3), (pid.toNat, 13)] := by
    simp (disch := simp [BitField.width]) only [writeBits_last, writeBits_or_word]
  have second : writeBits 0x0f 16 0 4 ||| writeBits 0 16 4 2 ||| writeBits d.size 16 6 10 =
      BitField.word [(15, 4), (0, 2), (d.size, 10)] := by
    simp (disch := simp [BitField.width]) only [Nat.or_assoc, writeBits_last, writeBits_or_word]
  have together : d.infoWord pid = BitField.word [(7, 3), (pid.toNat, 13)] * 256 ^ 2 +
      BitField.word [(15, 4), (0, 2), (d.size, 10)] := BitField.word_append [(7, 3), (pid.toNat, 13)] _
  rw [first, second, together]
  exact BigEndian.bytes_append (BitField.word_lt _) (BitField.word_lt _)

theorem pack_eq (d : TsPmtDescriptor) (b : Buffer) :
    (d.pack (Bytestream.constructBuffer b)).2 = Bytestream.constructBuffer (b ++ d.bytes) := by
  simp only [pack, bytes, Bytestream.write8, Bytestream.write_constructBuffer]
  split
  · simp only [List.append_assoc]
  · rw [List.append_nil]

theorem packInfo_eq (d : TsPmtDescriptor) (pid : BitVec 13) (b : Buffer) :
    d.packInfo pid (Bytestream.constructBuffer b) = Bytestream.constructBuffer (b ++ d.infoBytes pid) := by
  have loop : ∀ c : Buffer, (if d.size ≠ 0 then (d.pack (Bytestream.constructBuffer c)).2 else Bytestream.constructBuffer c) =
      Bytestream.constructBuffer (c ++ d.bytes) := by
    intro c
    split
    · exact d.pack_eq c
    · rename_i empty
      have none : d.bytes = [] := List.eq_nil_of_length_eq_zero (by rw [length_bytes]; omega)
      rw [none, List.append_nil]
  simp only [packInfo, Bytestream.write16, Bytestream.write_constructBuffer, loop]
  rw [List.append_assoc b, words_eq, List.append_assoc]
  rfl

theorem bytes_present (present : d.tag ≠ 0) : d.bytes = d.tag :: UInt8.ofNat d.data.size :: d.data.data := by
  rw [bytes, if_pos present, BigEndian.bytes_one, BigEndian.bytes_one, UInt8.ofNat_toNat]
  rfl

theorem toNat_size (d : TsPmtDescriptor) : (UInt8.ofNat d.data.size).toNat = d.data.data.length := by
  rw [UInt8.toNat_ofNat']
  exact Nat.mod_eq_of_lt d.data.fits

/-- The loop of one descriptor, or of none. -/
def loop (d : TsPmtDescriptor) : TsPmtLoop where
  bytes := d.bytes
  short := by
    have small := d.size_le
    rw [length_bytes]
    omega
  whole := by
    by_cases absent : d.tag = 0
    · rw [bytes, if_neg (not_not.mpr absent)]
      trivial
    · rw [bytes_present absent]
      exact Nat.le_of_eq d.toNat_size

theorem infoBytes_loop (d : TsPmtDescriptor) (pid : BitVec 13) : d.loop.infoBytes pid = d.infoBytes pid := by
  rw [TsPmtLoop.infoBytes, infoBytes, infoWord, TsPmtLoop.word, loop, length_bytes]

/-- A descriptor is read back from a loop of its own. -/
theorem descriptor_loop (plain : d.Plain) : d.loop.descriptor = d := by
  by_cases absent : d.tag = 0
  · rw [plain.eq_default absent]
    rfl
  · have data : Block.take d.data.data (UInt8.ofNat d.data.size) = d.data := by
      apply Block.ext
      simp only [Block.take, toNat_size, List.take_length]
    rw [TsPmtLoop.descriptor, loop]
    simp only [bytes_present absent, firstDescriptor, data]

end TsPmtDescriptor

/-- The bytes of a stream. -/
def TsPmtStream.bytes (p : TsPmtStream) : List UInt8 :=
  BigEndian.bytes 1 p.streamType.toNat ++ p.descriptor.infoBytes p.elementaryPid

theorem TsPmtStream.length_bytes (p : TsPmtStream) : p.bytes.length = 5 + p.descriptor.size := by
  rw [bytes, TsPmtDescriptor.infoBytes, List.length_append, List.length_append, BigEndian.length_bytes,
    BigEndian.length_bytes, TsPmtDescriptor.length_bytes]
  omega

namespace TsPmt

/-- The data of the section. -/
def dataBytes (pmt : TsPmt) : List UInt8 :=
  pmt.descriptor.infoBytes pmt.pcrPid ++ pmt.streams.flatMap TsPmtStream.bytes

/-- The section length the format asks for. -/
def sectionLength (pmt : TsPmt) : Nat :=
  13 + pmt.descriptor.size + (pmt.streams.map fun p => 5 + p.descriptor.size).sum

/-- Absent descriptors have no data. -/
structure Plain (pmt : TsPmt) : Prop where
  descriptor : pmt.descriptor.Plain
  streams : ∀ p ∈ pmt.streams, p.descriptor.Plain

theorem length_dataBytes (pmt : TsPmt) : pmt.dataBytes.length + 9 = pmt.sectionLength := by
  have streams : ∀ ps : List TsPmtStream, (ps.flatMap TsPmtStream.bytes).length =
      (ps.map fun p => 5 + p.descriptor.size).sum := by
    intro ps
    rw [List.length_flatMap]
    simp only [TsPmtStream.length_bytes]
  rw [dataBytes, TsPmtDescriptor.infoBytes, List.length_append, List.length_append, BigEndian.length_bytes,
    TsPmtDescriptor.length_bytes, streams, sectionLength]
  omega

/-- The entry of a stream. -/
def entry (p : TsPmtStream) : TsPmtEntry :=
  { streamType := p.streamType, elementaryPid := p.elementaryPid, loop := p.descriptor.loop }

/-- The map as it lies in a section. -/
def data (pmt : TsPmt) : TsPmtData :=
  { pcrPid := pmt.pcrPid, loop := pmt.descriptor.loop, entries := pmt.streams.map entry }

theorem bytes_data (pmt : TsPmt) : pmt.data.bytes = pmt.dataBytes := by
  have each : (fun p => (entry p).bytes) = TsPmtStream.bytes := by
    funext p
    rw [TsPmtEntry.bytes, entry, TsPmtDescriptor.infoBytes_loop, TsPmtStream.bytes, BigEndian.bytes_one,
      UInt8.ofNat_toNat]
    rfl
  rw [TsPmtData.bytes, data, TsPmtDescriptor.infoBytes_loop, List.flatMap_map, each]
  rfl

/-- What is read of it into a map without streams. -/
theorem decoded_data {pmt start : TsPmt} (plain : pmt.Plain) (empty : start.streams = []) :
    pmt.data.decoded start =
      { start with pcrPid := pmt.pcrPid, descriptor := pmt.descriptor, streams := pmt.streams } := by
  have each : pmt.streams.map (TsPmtEntry.decoded ∘ entry) = pmt.streams := by
    calc pmt.streams.map (TsPmtEntry.decoded ∘ entry)
        = pmt.streams.map (fun p => p) := by
          apply List.map_congr_left
          intro p member
          rw [Function.comp_apply, TsPmtEntry.decoded, entry, TsPmtDescriptor.descriptor_loop (plain.streams p member)]
      _ = pmt.streams := List.map_id' _
  rw [TsPmtData.decoded, data, TsPmtDescriptor.descriptor_loop plain.descriptor, List.map_map, each, empty,
    List.nil_append]

/-! ## What the encoder writes -/

theorem packStreams_eq (ps : List TsPmtStream) (b : Buffer) :
    packStreams ps (Bytestream.constructBuffer b) = Bytestream.constructBuffer (b ++ ps.flatMap TsPmtStream.bytes) := by
  induction ps generalizing b with
  | nil => rw [packStreams, List.flatMap_nil, List.append_nil]
  | cons p ps ih =>
    rw [packStreams, Bytestream.write8, Bytestream.write_constructBuffer, TsPmtDescriptor.packInfo_eq, ih,
      List.flatMap_cons, TsPmtStream.bytes]
    simp only [List.append_assoc]

/-- The unit the encoder writes. -/
def packetBytes (pmt : TsPmt) : List UInt8 :=
  let whole := 0 :: psi.sectionBytes pmt.dataBytes
  whole ++ List.replicate (TsPsi.padding whole.length) 0xff

/-- The whole effect of the encoder on an empty buffer. -/
theorem packBuffer_eq (pmt : TsPmt) :
    pmt.packBuffer [] =
      if intOfSize pmt.sectionLength > 1021 then some (-1, [0]) else some (1, pmt.packetBytes) := by
  have pointer : ¬ (1 : Int) = -1 := by decide
  have data : packStreams pmt.streams (pmt.descriptor.packInfo pmt.pcrPid (Bytestream.constructBuffer [])) =
      Bytestream.constructBuffer pmt.dataBytes := by
    rw [TsPmtDescriptor.packInfo_eq, packStreams_eq]
    rfl
  rw [packBuffer, packStream, TsPsi.pointerPack_constructBuffer]
  simp only [if_neg pointer, data]
  rw [TsPsi.packStream_eq, length_dataBytes]
  split <;> rfl

/-! ## What the decoder makes of it -/

section Unpack

variable {s : Bytestream} {rest : List UInt8}

/-- The section that was written, with its header read. -/
theorem unpackSection_bytes (pmt : TsPmt) (plain : pmt.Plain) (extension version : Int) (h : s.Holds pmt.dataBytes) :
    ({ id := 2, idExtension := extension, version := version } : TsPmt).unpackSection s =
      (1, { pmt with id := 2, idExtension := extension, version := version }) := by
  rw [← bytes_data] at h
  rw [unpackSection_data _ pmt.data rfl h, decoded_data plain rfl]
  rfl

/-- A map that was written is read back. -/
theorem unpackStream_bytes (pmt : TsPmt) (plain : pmt.Plain) (fits : pmt.sectionLength ≤ 1021)
    (h : s.Holds pmt.packetBytes) :
    construct.unpackStream s =
      (1, { pmt with id := 2, idExtension := 1, version := 0 }, (s.skip 1).skip 8) := by
  have length := pmt.length_dataBytes
  have high : pmt.dataBytes.length + 9 < 2 ^ 10 := by omega
  have named : psi.id ≠ 0xff := by decide
  have h1 := Bytestream.Holds.skip_cons h
  have header := TsPsi.constructStream_section h1 named high
  have h2 := (TsPsi.unpackStream_section h1 named high).2
  have number : (BitVec.ofNat 10 (pmt.dataBytes.length + 9)).toNat = pmt.dataBytes.length + 9 := by
    rw [BitVec.toNat_ofNat, Nat.mod_eq_of_lt high]
  have there : ¬ (pmt.dataBytes.length + 9 < 9 ∨ ((s.skip 1).skip 8).size + 5 < pmt.dataBytes.length + 9) := by
    rw [h2.sizeEq]
    simp only [List.length_append, BigEndian.length_bytes]
    omega
  have data := h2.construct (n := pmt.dataBytes.length) (by rw [List.length_append]; exact Nat.le_add_right _ _)
  rw [List.take_left' rfl] at data
  have accepted : ¬ (1 : Int) ≤ 0 := by decide
  have read := unpackSection_bytes pmt plain 1 0 data
  have start : ({ construct with
      id := (psi.id.toNat : Int), idExtension := (psi.idExtension.toNat : Int), version := (psi.version.toNat : Int) } :
      TsPmt) = { id := 2, idExtension := 1, version := 0 } := rfl
  rw [unpackStream, TsPsi.pointerUnpack_zero h]
  simp only [if_neg accepted, header, number, if_neg there, Nat.add_sub_cancel]
  rw [start, read]

end Unpack

theorem unpackBuffer_packetBytes (pmt : TsPmt) (plain : pmt.Plain) (fits : pmt.sectionLength ≤ 1021) :
    construct.unpackBuffer pmt.packetBytes = (1, { pmt with id := 2, idExtension := 1, version := 0 }) := by
  have filled : pmt.packetBytes ≠ [] := List.cons_ne_nil _ _
  rw [unpackBuffer, unpackStream_bytes pmt plain fits (Bytestream.holds_constructBuffer filled)]

/-! ## The round trip -/

/-- The encoder returns 1 exactly on a section that is not too long, and -1 on any other, and
what it writes is read back. -/
def RoundTrips (pmt : TsPmt) : Prop :=
  ∃ n b, pmt.packBuffer [] = some (n, b) ∧ n = (if pmt.sectionLength ≤ 1021 then 1 else -1) ∧
    (n = 1 → ∃ q, construct.unpackBuffer b = (1, q) ∧ q.pcrPid = pmt.pcrPid ∧ q.descriptor = pmt.descriptor ∧
      q.streams = pmt.streams)

variable {pmt : TsPmt}

/-- A section too long whose length is no longer too long as an `int`. -/
theorem not_roundTrips (long : 1021 < pmt.sectionLength) (wraps : intOfSize pmt.sectionLength ≤ 1021) :
    ¬ pmt.RoundTrips := by
  rintro ⟨n, b, packed, result, -⟩
  rw [packBuffer_eq, if_neg (by omega)] at packed
  rw [if_neg (by omega)] at result
  cases packed
  cases result

/-- **A program map is read back** exactly when its section length is not too long, or is
still so as an `int`. -/
theorem roundTrips_iff (plain : pmt.Plain) :
    pmt.RoundTrips ↔ pmt.sectionLength ≤ 1021 ∨ 1021 < intOfSize pmt.sectionLength := by
  constructor
  · intro trip
    by_contra neither
    obtain ⟨long, wraps⟩ := not_or.mp neither
    exact not_roundTrips (by omega) (by omega) trip
  · rintro (short | long)
    · have small : intOfSize pmt.sectionLength = pmt.sectionLength := intOfSize_of_lt (by omega)
      refine ⟨1, pmt.packetBytes, ?_, ?_, ?_⟩
      · rw [packBuffer_eq, if_neg (by omega)]
      · rw [if_pos short]
      · intro _
        exact ⟨_, unpackBuffer_packetBytes pmt plain short, rfl, rfl, rfl⟩
    · have apart : ¬ pmt.sectionLength ≤ 1021 := by
        intro short
        rw [intOfSize_of_lt (by omega)] at long
        omega
      refine ⟨-1, [0], ?_, ?_, ?_⟩
      · rw [packBuffer_eq, if_pos (by omega)]
      · rw [if_neg apart]
      · intro one
        cases one

/-- A map of two streams, one with a descriptor. -/
def describedMap : TsPmt :=
  { pcrPid := 256, streams := [{ streamType := 27, elementaryPid := 256 },
      { streamType := 6, elementaryPid := 257, descriptor := { tag := 5, data := ⟨[3], by decide⟩ } }] }

theorem roundTrips_iff_two : describedMap.RoundTrips ∧ describedMap.sectionLength = 26 := by
  have plain : describedMap.Plain := ⟨by decide, by decide⟩
  exact ⟨(roundTrips_iff plain).2 (Or.inl (by decide)), rfl⟩

theorem sectionLength_replicate (n : Nat) :
    ({ streams := List.replicate n {} } : TsPmt).sectionLength = 13 + n * 5 := by
  have none : ({} : TsPmtDescriptor).size = 0 := rfl
  rw [sectionLength, none, List.map_replicate, none, List.sum_replicate]
  rfl

/-- So many streams that the length is negative as an `int`. -/
theorem not_roundTrips_many : ¬ ({ streams := List.replicate 429496730 {} } : TsPmt).RoundTrips := by
  have length := sectionLength_replicate 429496730
  apply not_roundTrips
  · rw [length]
    decide
  · rw [length]
    decide

end TsPmt
end Libts
