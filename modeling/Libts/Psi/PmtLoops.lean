import Mathlib.Algebra.Order.BigOperators.Group.List
import Libts.Psi.PmtRoundTrip

/-!
# Encoding a decoded program map

A loop of descriptors is decoded as its first descriptor, and one with tag 0 counts as
none, so a map that is decoded and encoded again has at most one descriptor in each loop
(`packBuffer_unpackBuffer`). Nothing is lost where there was no more than that.
-/

namespace Libts
set_option autoImplicit false

open CArith

/-- The first descriptor of a loop, unless its tag is 0. -/
def firstBytes : List UInt8 → List UInt8
  | tag :: size :: rest => if tag = 0 then [] else tag :: size :: rest.take size.toNat
  | _ => []

/-- A loop of one descriptor whose tag is not 0, or of none. -/
def AtMostOne : List UInt8 → Prop
  | [] => True
  | [_] => False
  | tag :: size :: rest => tag ≠ 0 ∧ size.toNat = rest.length

theorem length_firstBytes_le (l : List UInt8) : (firstBytes l).length ≤ l.length := by
  unfold firstBytes
  split
  · split
    · exact Nat.zero_le _
    · simp only [List.length_cons, List.length_take]
      omega
  · exact Nat.zero_le _

theorem startsWhole_firstBytes {l : List UInt8} (whole : StartsWhole l) : StartsWhole (firstBytes l) := by
  unfold firstBytes
  split
  · rename_i tag size rest
    split
    · trivial
    · have fits : size.toNat ≤ rest.length := whole
      exact Nat.le_of_eq (List.length_take_of_le fits).symm
  · trivial

theorem firstBytes_eq_self_iff {l : List UInt8} (whole : StartsWhole l) : firstBytes l = l ↔ AtMostOne l := by
  match l, whole with
  | [], _ => exact iff_of_true rfl trivial
  | tag :: size :: rest, whole =>
    have fits : size.toNat ≤ rest.length := whole
    simp only [firstBytes, AtMostOne]
    split
    · rename_i absent
      exact iff_of_false (by simp) (fun single => single.1 absent)
    · rename_i present
      rw [List.cons.injEq, List.cons.injEq, List.take_eq_self_iff]
      constructor
      · rintro ⟨-, -, all⟩
        exact ⟨present, by omega⟩
      · rintro ⟨-, same⟩
        exact ⟨rfl, rfl, by omega⟩

namespace TsPmtLoop

/-- What is left of a loop. -/
def kept (loop : TsPmtLoop) : TsPmtLoop where
  bytes := firstBytes loop.bytes
  short := Nat.lt_of_le_of_lt (length_firstBytes_le _) loop.short
  whole := startsWhole_firstBytes loop.whole

/-- The loop that is encoded for what was decoded. -/
theorem loop_descriptor (loop : TsPmtLoop) : loop.descriptor.loop.bytes = loop.kept.bytes := by
  obtain ⟨bytes, short, whole⟩ := loop
  match bytes, whole with
  | [], _ => rfl
  | tag :: size :: rest, whole =>
    have fits : size.toNat ≤ rest.length := whole
    have data : (Block.take rest size).data = rest.take size.toNat := rfl
    have count : UInt8.ofNat (Block.take rest size).size = size := by
      rw [Block.size, data, List.length_take_of_le fits, UInt8.ofNat_toNat]
    simp only [kept, firstBytes, descriptor, firstDescriptor, TsPmtDescriptor.loop]
    split
    · rename_i absent
      exact if_neg (not_not_intro absent)
    · rename_i present
      rw [TsPmtDescriptor.bytes_present present, count, data]

end TsPmtLoop

/-- What is left of a stream. -/
def TsPmtEntry.kept (e : TsPmtEntry) : TsPmtEntry := { e with loop := e.loop.kept }

namespace TsPmtData

/-- What is left of the data of a section. -/
def kept (d : TsPmtData) : TsPmtData := { d with loop := d.loop.kept, entries := d.entries.map TsPmtEntry.kept }

/-- No loop has more than one descriptor. -/
structure AtMostOne (d : TsPmtData) : Prop where
  loop : Libts.AtMostOne d.loop.bytes
  entries : ∀ e ∈ d.entries, Libts.AtMostOne e.loop.bytes

theorem kept_eq_self_iff (d : TsPmtData) : d.kept = d ↔ d.AtMostOne := by
  have loops : ∀ loop : TsPmtLoop, loop.kept = loop ↔ Libts.AtMostOne loop.bytes := by
    intro loop
    rw [TsPmtLoop.ext_iff]
    exact firstBytes_eq_self_iff loop.whole
  have entries : ∀ e : TsPmtEntry, e.kept = e ↔ Libts.AtMostOne e.loop.bytes := by
    intro e
    rw [← loops, TsPmtEntry.ext_iff]
    exact ⟨fun same => same.2.2, fun same => ⟨rfl, rfl, same⟩⟩
  rw [TsPmtData.ext_iff]
  constructor
  · rintro ⟨-, first, rest⟩
    refine ⟨(loops _).1 first, ?_⟩
    intro e member
    have same : d.entries.map TsPmtEntry.kept = d.entries.map fun e => e := rest.trans (List.map_id' _).symm
    exact (entries e).1 (List.map_inj_left.mp same e member)
  · rintro ⟨first, rest⟩
    refine ⟨rfl, (loops _).2 first, ?_⟩
    have same : d.entries.map TsPmtEntry.kept = d.entries.map fun e => e :=
      List.map_congr_left fun e member => (entries e).2 (rest e member)
    exact same.trans (List.map_id' _)

theorem length_kept_le (d : TsPmtData) : d.kept.bytes.length ≤ d.bytes.length := by
  have first := length_firstBytes_le d.loop.bytes
  have rest : (d.entries.map fun e => e.kept.bytes.length).sum ≤ (d.entries.map fun e => e.bytes.length).sum := by
    apply List.sum_le_sum
    intro e _
    have shorter := length_firstBytes_le e.loop.bytes
    simp only [TsPmtEntry.bytes, TsPmtEntry.kept, TsPmtLoop.kept, List.length_cons, TsPmtLoop.length_infoBytes]
    omega
  simp only [bytes, kept, TsPmtLoop.kept, List.length_append, TsPmtLoop.length_infoBytes, List.flatMap_map,
    List.length_flatMap]
  omega

/-- The map that is decoded lies in a section as what is left. -/
theorem data_decoded (d : TsPmtData) {start : TsPmt} (empty : start.streams = []) : (d.decoded start).data = d.kept := by
  refine TsPmtData.ext rfl (TsPmtLoop.ext (TsPmtLoop.loop_descriptor _)) ?_
  simp only [TsPmt.data, decoded, empty, List.nil_append, List.map_map]
  apply List.map_congr_left
  intro e _
  exact TsPmtEntry.ext rfl rfl (TsPmtLoop.ext (TsPmtLoop.loop_descriptor _))

end TsPmtData

namespace TsPmt

theorem dataIn_packetBytes {pmt : TsPmt} (fits : pmt.sectionLength ≤ 1021) :
    TsPsi.dataIn (TsPsi.pointed pmt.packetBytes) = pmt.dataBytes := by
  have length := pmt.length_dataBytes
  exact TsPsi.dataIn_section psi _ (by omega)

/-- **A map that is decoded and encoded again** has the first descriptor of each loop, unless
its tag is 0. The section has the same data exactly when no loop had more. -/
theorem packBuffer_unpackBuffer {b : Buffer} {pmt : TsPmt} (accepted : construct.unpackBuffer b = (1, pmt))
    (short : TsPsi.lengthIn (TsPsi.pointed b) ≤ 1021) :
    ∃ (d : TsPmtData) (out : Buffer), TsPsi.dataIn (TsPsi.pointed b) = d.bytes ∧ pmt.packBuffer [] = some (1, out) ∧
      TsPsi.dataIn (TsPsi.pointed out) = d.kept.bytes ∧
      (TsPsi.dataIn (TsPsi.pointed out) = TsPsi.dataIn (TsPsi.pointed b) ↔ d.AtMostOne) := by
  obtain ⟨d, start, bytes, length, empty, rfl⟩ := unpackBuffer_accepted accepted
  have data : (d.decoded start).dataBytes = d.kept.bytes := by rw [← bytes_data, d.data_decoded empty]
  have fits : (d.decoded start).sectionLength ≤ 1021 := by
    have less := d.length_kept_le
    rw [← length_dataBytes, data]
    omega
  have written := dataIn_packetBytes fits
  rw [data] at written
  refine ⟨d, (d.decoded start).packetBytes, bytes, ?_, written, ?_⟩
  · rw [packBuffer_eq, intOfSize_of_lt (by omega), if_neg (by omega)]
  · rw [written, bytes, TsPmtData.bytes_injective.eq_iff, d.kept_eq_self_iff]

/-- A map of one stream with two descriptors. -/
def twoDescriptors : Buffer :=
  [0x00, 0x02, 0xb0, 0x16, 0x00, 0x01, 0xc1, 0x00, 0x00, 0xe1, 0x01, 0xf0, 0x00, 0x1b, 0xe1, 0x01, 0xf0, 0x04, 0x28, 0x00,
    0x2a, 0x00, 0x00, 0x00, 0x00, 0x00]

/-- What is decoded of it. -/
def oneDescriptor : TsPmt :=
  { id := 2
    idExtension := 1
    pcrPid := 0x101
    streams := [{ streamType := 0x1b, elementaryPid := 0x101, descriptor := { tag := 0x28 } }] }

theorem packBuffer_unpackBuffer_two :
    ∃ (d : TsPmtData) (out : Buffer), TsPsi.dataIn (TsPsi.pointed twoDescriptors) = d.bytes ∧
      oneDescriptor.packBuffer [] = some (1, out) ∧ TsPsi.dataIn (TsPsi.pointed out) = d.kept.bytes ∧
      (TsPsi.dataIn (TsPsi.pointed out) = TsPsi.dataIn (TsPsi.pointed twoDescriptors) ↔ d.AtMostOne) :=
  packBuffer_unpackBuffer (by decide +kernel) (by decide)

/-- The second descriptor is lost. -/
theorem not_kept_second :
    construct.unpackBuffer twoDescriptors = (1, oneDescriptor) ∧ TsPsi.lengthIn (TsPsi.pointed twoDescriptors) ≤ 1021 ∧
      TsPsi.dataIn (TsPsi.pointed twoDescriptors) =
        [0xe1, 0x01, 0xf0, 0x00, 0x1b, 0xe1, 0x01, 0xf0, 0x04, 0x28, 0x00, 0x2a, 0x00] ∧
      ∃ out, oneDescriptor.packBuffer [] = some (1, out) ∧
        TsPsi.dataIn (TsPsi.pointed out) = [0xe1, 0x01, 0xf0, 0x00, 0x1b, 0xe1, 0x01, 0xf0, 0x02, 0x28, 0x00] := by
  have fits : ¬ intOfSize oneDescriptor.sectionLength > 1021 := by decide
  refine ⟨by decide +kernel, by decide, by decide, oneDescriptor.packetBytes, ?_, ?_⟩
  · rw [packBuffer_eq, if_neg fits]
  · rw [dataIn_packetBytes (by decide)]
    decide

end TsPmt

end Libts
