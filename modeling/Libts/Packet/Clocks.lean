import Libts.Packet.PcrCodec
import Libts.Packet.RoundTrip

/-!
# Clocks on the wire

A clock keeps the bits of its base that the mask of the compilation has when it is written and read,
and what is left of it stays (`TsPcr.reread_reread`). The clocks are all that a packet loses on the
way: what the decoder makes of a packet that the encoder wrote is that packet with its clocks read
again (`TsPacket.Settled.wirePacket_eq`).
-/

namespace Libts
set_option autoImplicit false

open CArith

namespace TsPcr

/-- A clock that was written and read. -/
def reread [Compilation] (value : BitVec 64) : BitVec 64 := read (bytes value)

section Reread

variable [Compilation] (value : BitVec 64)

/-- What is read is kept, whatever the mask. -/
theorem reread_reread : reread (reread value) = reread value := by
  have few : value.toNat / 300 % 2 ^ 33 &&& baseMask ≤ value.toNat / 300 % 2 ^ 33 := Nat.and_le_left
  have base : (reread value).toNat / 300 % 2 ^ 33 = value.toNat / 300 % 2 ^ 33 &&& baseMask := by
    rw [reread, read_bytes]
    omega
  rw [← BitVec.toNat_inj, reread, read_bytes, base, Nat.and_assoc, Nat.and_self, reread, read_bytes]
  omega

/-- A clock is read from its bytes whatever follows them. -/
theorem read_bytes_append (rest : List UInt8) : read (bytes value ++ rest) = reread value := by
  have front : (bytes value ++ rest).take 6 = bytes value := List.take_left' (length_bytes value)
  rw [← read_take (Nat.le_refl 6), front, reread]

end Reread

end TsPcr

namespace TsEbp

/-- Data without the identifier of a marker leaves the marker as it was constructed. -/
theorem ofData_unrecognised {data : List UInt8} (plain : (ofData data).marker = false) : ofData data = {} := by
  let s := Bytestream.construct (some data) data.length
  have other : BigEndian.value (s.peek 1) ≠ 0xdf ∨ ((s.skip 1).skip 1).peek 4 ≠ identifier := by
    rw [Bytestream.skip_skip]
    by_contra own
    rw [ofData, unpack_marker, if_neg own] at plain
    cases plain
  have refused : unpack construct s = (0, construct, ((s.skip 1).skip 1).skip 4) := if_pos other
  rw [ofData, refused]
  rfl

end TsEbp

namespace TsAdaptationField

/-- The field with its clocks as they are read back. -/
def reread [Compilation] (af : TsAdaptationField) : TsAdaptationField :=
  { af with
    pcr := if af.pcrFlag then TsPcr.reread af.pcr else 0
    opcr := if af.opcrFlag then TsPcr.reread af.opcr else 0
    ebp := {} }

/-- A field is known by what is said of it and by its clocks. -/
theorem eq_of_blank {a b : TsAdaptationField} (same : a.blank = b.blank) (pcr : a.pcr = b.pcr) (opcr : a.opcr = b.opcr)
    (ebp : a.ebp = b.ebp) : a = b := by
  cases a
  cases b
  simp only [blank, mk.injEq] at same pcr opcr ebp ⊢
  tauto

theorem blank_reread [Compilation] {af : TsAdaptationField} (plain : af.ebp.marker = false) :
    af.reread.blank = af.blank := by
  simp only [blank, reread, plain]

theorem reread_reread [Compilation] (af : TsAdaptationField) : af.reread.reread = af.reread := by
  cases pcr : af.pcrFlag <;> cases opcr : af.opcrFlag <;> simp [reread, pcr, opcr, TsPcr.reread_reread]

variable {af : TsAdaptationField} (tail : List UInt8)

theorem drop_opcrOffset : (af.fieldWire tail).drop af.opcrOffset =
    (if af.opcrFlag then TsPcr.bytes af.opcr else []) ++
      ((if af.splicingPointFlag then BigEndian.bytes 1 af.spliceCountdown.toNat else []) ++ (af.privateBytes ++ tail)) := by
  have front : (BigEndian.bytes 1 af.flags ++ if af.pcrFlag then TsPcr.bytes af.pcr else []).length = af.opcrOffset := by
    unfold opcrOffset
    split <;> simp
  have parts : af.fieldWire tail = (BigEndian.bytes 1 af.flags ++ if af.pcrFlag then TsPcr.bytes af.pcr else []) ++
      ((if af.opcrFlag then TsPcr.bytes af.opcr else []) ++
        ((if af.splicingPointFlag then BigEndian.bytes 1 af.spliceCountdown.toNat else []) ++
          (af.privateBytes ++ tail))) := by
    simp only [fieldWire, fieldBytes, List.append_assoc]
  rw [parts, ← front, List.drop_left]

/-- The field the decoder makes of the written one, all of it. -/
theorem Sound.wireField_eq [Compilation] (sound : af.Sound) : wireField (af.fieldWire tail) = af.reread := by
  have flags := wireFlags_fieldWire af tail
  apply eq_of_blank
  · rw [sound.blank_wireField, blank_reread sound.marker]
  · have first : (af.fieldWire tail).drop 1 = af.fieldBytes ++ tail := by
      rw [fieldWire, BigEndian.bytes_one, List.singleton_append, List.drop_succ_cons, List.drop_zero]
    simp only [wireField, wireClocks, flags, reread, first]
    by_cases flag : af.pcrFlag = true
    · simp only [if_pos flag, fieldBytes, List.append_assoc, TsPcr.read_bytes_append]
    · rw [if_neg flag, if_neg flag]
  · have offset : (wireFlags (af.fieldWire tail)).opcrOffset = af.opcrOffset := by
      rw [flags]
      rfl
    simp only [wireField, wireClocks, offset]
    simp only [flags, reread]
    by_cases flag : af.opcrFlag = true
    · rw [if_pos flag, if_pos flag, drop_opcrOffset, if_pos flag, TsPcr.read_bytes_append]
    · rw [if_neg flag, if_neg flag]
  · simp only [wireField, flags, reread]
    by_cases flag : af.transportPrivateDataFlag = true
    · rw [if_pos flag, sound.wirePrivate_eq tail flag, TsEbp.ofData_unrecognised sound.unrecognised]
    · rw [if_neg flag]

end TsAdaptationField

namespace TsPacket

/-- The packet with its clocks as they are read back. -/
def reread [Compilation] (p : TsPacket) : TsPacket := { p with adaptationField := p.adaptationField.reread }

theorem reread_reread [Compilation] (p : TsPacket) : p.reread.reread = p.reread := by
  simp only [reread, TsAdaptationField.reread_reread]

variable {p : TsPacket} (h : p.Settled) (rest : List UInt8)
include h

/-- The adaptation field of a written packet. -/
theorem Settled.wireAdaptationField_eq [Compilation] (has : p.hasAdaptationField = true) :
    TsPacket.wireAdaptationField (p.bytes ++ rest) = p.adaptationField.reread := by
  rw [TsPacket.wireAdaptationField]
  obtain one | several := eq_or_ne p.room 1
  · have clear := h.silent (Or.inr one)
    have blank := h.field.blank_eq clear
    simp only [TsAdaptationField.anyFlag, Bool.or_eq_false_iff] at clear
    obtain ⟨⟨⟨⟨-, pcr⟩, opcr⟩, -⟩, -⟩ := clear
    rw [if_pos ((h.fieldLength_eq_zero rest has).2 one)]
    apply TsAdaptationField.eq_of_blank
    · rw [TsAdaptationField.blank_reread h.field.marker, blank]
      rfl
    · simp [TsAdaptationField.reread, pcr]
    · simp [TsAdaptationField.reread, opcr]
    · rfl
  · obtain ⟨tail, wire⟩ := drop_length rest has several
    rw [if_neg (fun zero => several ((h.fieldLength_eq_zero rest has).1 zero)), wire, h.field.wireField_eq]

/-- **A written packet is read back** with its clocks read again; nothing else of it changes. -/
theorem Settled.wirePacket_eq [Compilation] : TsPacket.wirePacket (p.bytes ++ rest) = p.reread := by
  have same := h.wirePacket rest
  have field : (TsPacket.wirePacket (p.bytes ++ rest)).adaptationField = p.adaptationField.reread := by
    simp only [TsPacket.wirePacket, hasAdaptationField_wireHeader]
    by_cases has : p.hasAdaptationField = true
    · rw [if_pos has, h.wireAdaptationField_eq rest has]
    · have clear := h.silent (Or.inl (Bool.eq_false_iff.mpr has))
      have blank := h.field.blank_eq clear
      simp only [TsAdaptationField.anyFlag, Bool.or_eq_false_iff] at clear
      obtain ⟨⟨⟨⟨-, pcr⟩, opcr⟩, -⟩, -⟩ := clear
      rw [if_neg has]
      apply TsAdaptationField.eq_of_blank
      · rw [TsAdaptationField.blank_reread h.field.marker, blank]
        rfl
      · simp [TsAdaptationField.reread, pcr]
      · simp [TsAdaptationField.reread, opcr]
      · rfl
  generalize TsPacket.wirePacket (p.bytes ++ rest) = q at same field
  cases q
  cases p
  simp only [SameFields, TsPacket.blank, mk.injEq] at same
  simp only [reread, mk.injEq]
  tauto

end TsPacket

end Libts
