import Libts.Packet.Length
import Libts.Stream.Description

/-!
# The padding of a table

`ts_psi_pack_stream` pads the unit of a table to four bytes less than a multiple of 188, as if
a packet had one header for all of the unit. A packet takes 184 bytes. The two agree on a unit
of one packet, and then again behind 46 more (`mod_padded`).
-/

namespace Libts
set_option autoImplicit false

open CArith

namespace TsUnit

/-- Behind the first `size` bytes a unit is padded with less than a packet, and its packets are full
when they are written. -/
structure Filled (u : TsUnit) (size : Nat) : Prop where
  padding : size ≤ u.data.length ∧ u.data.length < size + 184
  packets : ∀ p ∈ (u.pack TsPackets.construct).2.list,
    (p.pack (Bytestream.constructBuffer [])).2.1.payloadSize = 184 ∧
      (p.pack (Bytestream.constructBuffer [])).2.1.hasAdaptationField = false

variable {u : TsUnit} (plain : u.randomAccessIndicator = false ∧ u.pcrFlag = false)
include plain

theorem room_plain (count : Nat) : u.room count = 184 := by
  have size := u.size_packet count
  obtain ⟨random, pcr⟩ := plain
  rw [random, pcr, if_neg (by simp)] at size
  rw [(u.room_eq count).1, size]

theorem hasAdaptationField_plain (count : Nat) (data : List UInt8) :
    ({ u.packet count with payloadData := data } : TsPacket).hasAdaptationField = false := by
  obtain ⟨random, pcr⟩ := plain
  rw [packet_eq, random, pcr]
  simp [TsPacket.hasAdaptationField]

/-- A packet of the unit is written full when its payload is. -/
theorem full_iff (count : Nat) (data : List UInt8) (s : Bytestream) (h : s.attached = true) :
    ((({ u.packet count with payloadData := data } : TsPacket).pack s).2.1.payloadSize = 184 ∧
      (({ u.packet count with payloadData := data } : TsPacket).pack s).2.1.hasAdaptationField = false) ↔
      data.length = 184 := by
  have size : ({ u.packet count with payloadData := data } : TsPacket).payloadSize = data.length := rfl
  have kept : ({ u.packet count with payloadData := data } : TsPacket).normalised.payloadSize = data.length := by
    rw [TsPacket.normalised_eq]
    rfl
  rw [TsPacket.pack_eq _ h, TsPacket.hasAdaptationField_normalised, hasAdaptationField_plain plain, kept, size]
  simp
  omega

/-- The packets are full when their payloads come out even. -/
theorem packets_full_iff (base : List UInt8) (count : Nat) :
    (∀ p ∈ u.packLoop base count, (p.pack (Bytestream.constructBuffer [])).2.1.payloadSize = 184 ∧
      (p.pack (Bytestream.constructBuffer [])).2.1.hasAdaptationField = false) ↔ base.length % 184 = 0 := by
  fun_induction packLoop u base count with
  | case1 base count empty => simp [empty]
  | case2 base count filled payloadSize shorter ih =>
    have size : payloadSize = min 184 base.length := by
      rw [← room_plain plain count]
    have width : (base.take payloadSize).length = payloadSize := by
      rw [List.length_take]
      omega
    rw [List.forall_mem_cons, full_iff plain count _ _ rfl, width, ih, List.length_drop]
    omega

end TsUnit

namespace TsStream

/-- The two tables of a stream fill whole packets. In front of the padding is a pointer and a
section: 17 bytes of an association, and what a map has. -/
def FillsPackets (ts : TsStream) : Prop :=
  ∀ units us us', ts.packPat units = some (1, us) → ts.packPmt us = some (1, us') →
    ∃ pat pmt, us'.list = units.list ++ [pat, pmt] ∧ pat.Filled 17 ∧ pmt.Filled (4 + ts.pmt.sectionLength)

/-- A section that ends in the first packet, or (when it is so long that its length wraps) in one
whose end is on both boundaries. -/
def SectionFits (length : Nat) : Prop :=
  length ≤ 180 ∨ 1021 < length ∧ 4 ≤ (length + 7) % (46 * 188) ∧ (length + 7) % (46 * 188) < 188

/-- Where a unit of `size` bytes is padded to a multiple of 184. -/
theorem mod_padded (size : Nat) :
    (size + TsPsi.padding size) % 184 = 0 ∧ TsPsi.padding size < 184 ↔
      4 ≤ (size + 3) % (46 * 188) ∧ (size + 3) % (46 * 188) < 188 := by
  unfold TsPsi.padding
  omega

theorem filled_iff {u : TsUnit} (plain : u.randomAccessIndicator = false ∧ u.pcrFlag = false) {size : Nat}
    (length : u.data.length = size + TsPsi.padding size) :
    u.Filled size ↔ 4 ≤ (size + 3) % (46 * 188) ∧ (size + 3) % (46 * 188) < 188 := by
  have packets := TsUnit.packets_full_iff plain u.data 0
  rw [← mod_padded, ← length, ← packets]
  constructor
  · rintro ⟨padding, full⟩
    exact ⟨full, by omega⟩
  · rintro ⟨full, padding⟩
    exact ⟨by omega, full⟩

theorem length_patUnit (ts : TsStream) : ts.patUnit.data.length = 17 + TsPsi.padding 17 := by
  simp only [patUnit, TsPat.packetBytes, List.length_append, List.length_replicate, List.length_cons,
    TsPsi.length_sectionBytes, BigEndian.length_bytes]

theorem length_pmtUnit (ts : TsStream) : ts.pmtUnit.data.length =
    4 + ts.pmt.sectionLength + TsPsi.padding (4 + ts.pmt.sectionLength) := by
  have whole : 8 + ts.pmt.dataBytes.length + 4 + 1 = 4 + ts.pmt.sectionLength := by
    rw [← TsPmt.length_dataBytes]
    omega
  simp only [pmtUnit, TsPmt.packetBytes, List.length_append, List.length_replicate, List.length_cons,
    TsPsi.length_sectionBytes, whole]

/-- The units of the tables, when both are written. -/
theorem packTables_iff {ts : TsStream} {units us' : TsUnits} :
    (∃ us, ts.packPat units = some (1, us) ∧ ts.packPmt us = some (1, us')) ↔
      ts.programPid ≠ 0 ∧ intOfSize ts.pmt.sectionLength ≤ 1021 ∧
        us' = { list := units.list ++ [ts.patUnit, ts.pmtUnit] } := by
  constructor
  · rintro ⟨us, pat, pmt⟩
    by_cases given : ts.programPid = 0
    · rw [packPat, if_pos given] at pat
      cases pat
    · rw [packPat_eq given] at pat
      cases pat
      rw [packPmt_eq given] at pmt
      split at pmt
      · cases pmt
      · cases pmt
        refine ⟨given, by omega, ?_⟩
        rw [List.append_assoc]
        rfl
  · rintro ⟨given, short, rfl⟩
    refine ⟨_, packPat_eq given units, ?_⟩
    rw [packPmt_eq given, if_neg (by omega), List.append_assoc]
    rfl

theorem filled_patUnit (ts : TsStream) : ts.patUnit.Filled 17 := by
  rw [filled_iff ⟨rfl, rfl⟩ ts.length_patUnit]
  decide

theorem filled_pmtUnit_iff (ts : TsStream) :
    ts.pmtUnit.Filled (4 + ts.pmt.sectionLength) ↔ SectionFits ts.pmt.sectionLength := by
  have least : 13 ≤ ts.pmt.sectionLength := by
    unfold TsPmt.sectionLength
    omega
  rw [filled_iff ⟨rfl, rfl⟩ ts.length_pmtUnit, SectionFits]
  omega

/-- **The tables of a stream fill whole packets** exactly when the map fits in one. -/
theorem fillsPackets_iff (ts : TsStream) :
    ts.FillsPackets ↔ (ts.programPid ≠ 0 → intOfSize ts.pmt.sectionLength ≤ 1021 → SectionFits ts.pmt.sectionLength) := by
  constructor
  · intro fills given short
    obtain ⟨us, first, second⟩ := packTables_iff.2 ⟨given, short, rfl⟩
    obtain ⟨pat, pmt, list, -, filled⟩ := fills {} us _ first second
    cases list
    exact ts.filled_pmtUnit_iff.1 filled
  · intro fits units us us' first second
    obtain ⟨given, short, rfl⟩ := packTables_iff.1 ⟨us, first, second⟩
    exact ⟨ts.patUnit, ts.pmtUnit, rfl, ts.filled_patUnit, ts.filled_pmtUnit_iff.2 (fits given short)⟩

/-- A stream whose map has 34 entries without descriptors. -/
def manyEntries : TsStream :=
  { programPid := 4096, streams := (List.range 34).map fun i => { pid := (256 + i : Nat) } }

/-- Its map does not fit in one packet. -/
theorem not_fillsPackets_many : ¬ manyEntries.FillsPackets := by
  intro fills
  have length : manyEntries.pmt.sectionLength = 183 := by decide +kernel
  have given : manyEntries.programPid ≠ 0 := by decide
  have short : intOfSize manyEntries.pmt.sectionLength ≤ 1021 := by
    rw [length]
    decide
  obtain ⟨us, first, second⟩ := packTables_iff.2 ⟨given, short, rfl⟩
  obtain ⟨pat, pmt, list, -, filled⟩ := fills {} us _ first second
  cases list
  have fits := manyEntries.filled_pmtUnit_iff.1 filled
  rw [length, SectionFits] at fits
  omega

end TsStream

end Libts
