import Libts.Packet.Length
import Libts.Packet.Framing

/-!
# Writing back a packet that was read

The decoder keeps the flags, the private data and the marker it recognised in it. The
encoder writes the marker in the place of the private data, but `ts_adaptation_field_size`
counts both, and it counts a size byte for private data of length zero that the encoder
does not write. These are the only blocks that are not written back as one packet
(`repacked_iff`).
-/

namespace Libts
set_option autoImplicit false

open CArith

namespace TsAdaptationField

/-- The bytes after a length byte announce private data that the encoder does not write as
it was: data of length zero, or data with a marker. -/
def LosesPrivateData (l : List UInt8) : Prop :=
  (wireFlags l).transportPrivateDataFlag = true ∧
    ((wirePrivate l).size = 0 ∨ TsEbp.recognised (wirePrivate l).data = true)

instance (l : List UInt8) : Decidable (LosesPrivateData l) := inferInstanceAs (Decidable (_ ∧ (_ ∨ _)))

variable {l : List UInt8}

theorem length_of_recognised {data : List UInt8} (h : TsEbp.recognised data = true) : 6 ≤ data.length := by
  simp only [TsEbp.recognised, Bool.and_eq_true, decide_eq_true_eq] at h
  exact h.1.1

theorem size_wirePrivate (flag : (wireFlags l).transportPrivateDataFlag = true) (there : wireSize l ≤ l.length) :
    (wirePrivate l).size = (l.getD (wireFlags l).privateOffset 0).toNat := by
  unfold wireSize at there
  rw [if_pos flag] at there
  simp only [wirePrivate, Block.take, Block.size, List.length_take, List.length_drop]
  omega

theorem privateSize_wireField [Compilation] (l : List UInt8) : (wireField l).privateSize =
    if (wireFlags l).transportPrivateDataFlag then
      (wirePrivate l).size + 1 + (if TsEbp.recognised (wirePrivate l).data then 15 else 0) else 0 := by
  unfold privateSize
  rw [show (wireField l).transportPrivateDataFlag = (wireFlags l).transportPrivateDataFlag from rfl]
  by_cases flag : (wireFlags l).transportPrivateDataFlag = true
  · simp only [wireField, if_pos flag, TsEbp.ofData_marker]
  · simp [wireField, flag]

theorem length_privateBytes_wireField [Compilation] (l : List UInt8) : (wireField l).privateBytes.length =
    if (wireFlags l).transportPrivateDataFlag then
      if TsEbp.recognised (wirePrivate l).data then 16
      else if (wirePrivate l).size ≠ 0 then (wirePrivate l).size + 1 else 0
    else 0 := by
  rw [length_privateBytes]
  by_cases flag : (wireFlags l).transportPrivateDataFlag = true
  · simp only [wireField, if_pos flag, TsEbp.ofData_marker]
  · simp only [wireField, if_neg flag]
    rfl

/-- What the encoder counts for the private data of a field that was read is what it writes,
except for the data it loses. -/
theorem balanced_wireField [Compilation] (l : List UInt8) :
    (wireField l).privateSize = (wireField l).privateBytes.length ↔ ¬ LosesPrivateData l := by
  rw [privateSize_wireField, length_privateBytes_wireField]
  unfold LosesPrivateData
  by_cases flag : (wireFlags l).transportPrivateDataFlag = true
  · rw [if_pos flag, if_pos flag]
    by_cases marker : TsEbp.recognised (wirePrivate l).data = true
    · have long : 6 ≤ (wirePrivate l).size := length_of_recognised marker
      rw [if_pos marker, if_pos marker]
      constructor
      · intro _
        omega
      · intro keeps
        exact absurd ⟨flag, Or.inr marker⟩ keeps
    · rw [if_neg marker, if_neg marker]
      obtain empty | filled := eq_or_ne ((wirePrivate l).size) 0
      · simp [flag, empty]
      · simp [flag, filled, marker]
  · simp [flag]

/-- A field that was read is written in the room it had. -/
theorem size_wireField_le [Compilation] (there : wireSize l ≤ l.length) (keeps : ¬ LosesPrivateData l) :
    (wireField l).size ≤ 1 + wireSize l := by
  rw [size_eq, privateSize_wireField, show (wireField l).privateOffset = (wireFlags l).privateOffset from rfl]
  by_cases flag : (wireFlags l).transportPrivateDataFlag = true
  · have unmarked : ¬ TsEbp.recognised (wirePrivate l).data = true := fun marker => keeps ⟨flag, Or.inr marker⟩
    have size := size_wirePrivate flag there
    unfold wireSize
    rw [if_pos flag, if_pos flag, if_neg unmarked]
    omega
  · unfold wireSize
    rw [if_neg flag, if_neg flag]
    omega

end TsAdaptationField

namespace TsPacket

/-- The encoder writes the packet as one: it returns 1, appends 188 bytes and does not
wrap the number of stuffing bytes. -/
structure Repacked (p : TsPacket) : Prop where
  stuffing : p.normalised.StuffingFits
  written : ∀ s : Bytestream, s.attached = true →
    (p.pack s).1 = 1 ∧ ∃ bs, (p.pack s).2.2.store = s.store ++ bs ∧ bs.length = 188

/-- The block has an adaptation field, not the one without flags, whose private data the
encoder loses. -/
def LosesPrivateData (b : List UInt8) : Prop :=
  (wireHeader b).hasAdaptationField = true ∧ fieldLength b ≠ 0 ∧ TsAdaptationField.LosesPrivateData (b.drop 5)

instance (b : List UInt8) : Decidable (LosesPrivateData b) := inferInstanceAs (Decidable (_ ∧ _ ∧ _))

variable {b : List UInt8} {p : TsPacket}

theorem repacked_iff_length : p.Repacked ↔ p.normalised.StuffingFits ∧ p.normalised.bytes.length = 188 := by
  constructor
  · rintro ⟨stuffing, written⟩
    refine ⟨stuffing, ?_⟩
    obtain ⟨-, bs, store, length⟩ := written (Bytestream.constructBuffer []) rfl
    rw [pack_eq p rfl, Bytestream.store_write rfl] at store
    rw [List.append_cancel_left store, length]
  · rintro ⟨stuffing, length⟩
    refine ⟨stuffing, fun s attached => ?_⟩
    rw [pack_eq p attached]
    exact ⟨rfl, _, Bytestream.store_write attached _, length⟩

/-- The sizes of a packet that was read from 188 bytes. -/
theorem Framed.payloadSize_eq [Compilation] (framed : Framed b) :
    (wirePacket b).payloadSize = 188 - payloadOffset b := by
  have long := framed.long
  have ends := framed.ends
  simp only [payloadSize, wirePacket]
  by_cases payload : (wireHeader b).hasPayload = true
  · rw [if_pos payload]
    simp only [List.length_take, List.length_drop]
    omega
  · rw [if_neg payload] at ends
    rw [if_neg payload, ends]
    rfl

theorem hasAdaptationField_wirePacket [Compilation] :
    (wirePacket b).hasAdaptationField = (wireHeader b).hasAdaptationField := rfl

theorem Framed.sized [Compilation] (framed : Framed b) : (wirePacket b).normalised.Sized := by
  have size := framed.payloadSize_eq
  apply sized_normalised (payloadSize_wirePacket_le b)
  intro field
  rw [size, payloadOffset, if_pos (by exact field)]
  omega

/-- A packet that was read from 188 bytes and consumed them all is framed. -/
theorem framed_of_unpack [Compilation] {s t : Bytestream} (h : s.Holds b) (size : b.length = 188)
    (read : construct.unpack s = some (1, p, t)) (consumed : t.size = 0) : Framed b ∧ p = wirePacket b := by
  have start : s.size = 188 := by rw [h.sizeEq, size]
  rcases TsPackets.call_cases h (by omega) with ⟨n, q, u, other, low, -, -⟩ | framed | slips
  · rw [other] at read
    cases read
    omega
  · rw [framed.unpack h] at read
    cases read
    exact ⟨framed, rfl⟩
  · exact absurd (by omega) (slips.read h read).2

/-- The room the encoder gives the adaptation field of a packet that was read is the room
it was read from. -/
theorem Framed.room [Compilation] (framed : Framed b) (field : (wireHeader b).hasAdaptationField = true) :
    (wirePacket b).normalised.room = 1 + (fieldLength b).toNat := by
  have size := framed.payloadSize_eq
  have offset := framed.offset_le
  have same : (wirePacket b).normalised.payloadSize = (wirePacket b).payloadSize := by
    rw [normalised_eq]
    rfl
  unfold payloadOffset at size offset
  rw [if_pos field] at size offset
  rw [framed.sized.room_eq, same, size]
  omega

theorem Framed.hasAdaptationField [Compilation] (framed : Framed b) :
    (wirePacket b).normalised.hasAdaptationField = (wireHeader b).hasAdaptationField := by
  have size := framed.payloadSize_eq
  rw [hasAdaptationField_normalised, hasAdaptationField_wirePacket]
  by_cases field : (wireHeader b).hasAdaptationField = true
  · rw [field, decide_eq_true (Or.inl rfl)]
  · unfold payloadOffset at size
    rw [if_neg field] at size
    have full : ¬ ((wireHeader b).hasAdaptationField = true ∨ (wirePacket b).payloadSize < 184) :=
      not_or.mpr ⟨field, by omega⟩
    rw [decide_eq_false full, Bool.eq_false_iff.mpr field]

theorem Framed.adaptationField [Compilation] (field : (wireHeader b).hasAdaptationField = true)
    (nonzero : fieldLength b ≠ 0) :
    (wirePacket b).normalised.adaptationField = TsAdaptationField.wireField (b.drop 5) := by
  rw [normalised_eq]
  simp only [wirePacket, if_pos field, wireAdaptationField, if_neg nonzero]

theorem Framed.balanced_iff [Compilation] (framed : Framed b) :
    (wirePacket b).normalised.Balanced ↔ ¬ LosesPrivateData b := by
  unfold Balanced
  rw [framed.hasAdaptationField]
  by_cases field : (wireHeader b).hasAdaptationField = true
  · rw [framed.room field]
    obtain zero | positive := eq_or_ne (fieldLength b) 0
    · rw [zero]
      constructor
      · intro _ loses
        exact loses.2.1 zero
      · intro _ _ other
        exact absurd rfl other
    · have present : 1 + (fieldLength b).toNat ≠ 1 := by
        intro one
        exact positive (UInt8.toNat_inj.mp (by simpa using one))
      rw [Framed.adaptationField field positive, TsAdaptationField.balanced_wireField]
      constructor
      · intro balanced loses
        exact balanced field present loses.2.2
      · intro keeps _ _ loses
        exact keeps ⟨field, positive, loses⟩
  · constructor
    · intro _ loses
      exact field loses.1
    · intro _ has
      exact absurd has field

theorem Framed.stuffingFits [Compilation] (framed : Framed b) (keeps : ¬ LosesPrivateData b) :
    (wirePacket b).normalised.StuffingFits := by
  intro has
  rw [framed.hasAdaptationField] at has
  rw [framed.room has]
  obtain zero | positive := eq_or_ne (fieldLength b) 0
  · left
    rw [zero]
    rfl
  · right
    obtain ⟨fits, there⟩ := (framed.field has).resolve_left positive
    have size := TsAdaptationField.size_wireField_le (l := b.drop 5) (by rw [List.length_drop]; omega)
      (fun loses => keeps ⟨has, positive, loses⟩)
    rw [Framed.adaptationField has positive]
    omega

theorem Framed.repacked_iff_balanced [Compilation] (framed : Framed b) :
    (wirePacket b).Repacked ↔ (wirePacket b).normalised.Balanced := by
  rw [repacked_iff_length]
  constructor
  · rintro ⟨stuffing, length⟩
    exact (length_bytes_iff framed.sized stuffing).1 length
  · intro balanced
    have stuffing := framed.stuffingFits (framed.balanced_iff.1 balanced)
    exact ⟨stuffing, (length_bytes_iff framed.sized stuffing).2 balanced⟩

/-- **A block that was read is written back** as one packet exactly when the encoder does
not lose its private data. -/
theorem repacked_iff [Compilation] {t : Bytestream} (size : b.length = 188)
    (read : construct.unpack (Bytestream.constructBuffer b) = some (1, p, t)) (consumed : t.size = 0) :
    p.Repacked ↔ ¬ LosesPrivateData b := by
  have nonempty : b ≠ [] := by
    rintro rfl
    cases size
  obtain ⟨framed, rfl⟩ := framed_of_unpack (Bytestream.holds_constructBuffer nonempty) size read consumed
  rw [framed.repacked_iff_balanced, framed.balanced_iff]

section AtRunTime
attribute [local instance] Compilation.atRunTime

/-- A packet with a payload alone. -/
theorem repacked_iff_payload :
    (wirePacket ([0x47, 0, 0, 0x10] ++ List.replicate 184 0)).Repacked ↔
      ¬ LosesPrivateData ([0x47, 0, 0, 0x10] ++ List.replicate 184 0) := by
  have framed : Framed ([0x47, 0, 0, 0x10] ++ List.replicate 184 0) :=
    ⟨by decide +kernel, by decide +kernel, by decide +kernel⟩
  exact repacked_iff (by decide +kernel) (framed.unpack (Bytestream.holds_constructBuffer (List.cons_ne_nil _ _)))
    (by decide +kernel)

/-- The encoder cannot write a packet it wrote itself for a marker: the count of the stuffing
bytes wraps. -/
theorem not_repacked_marker :
    ∃ p t, construct.unpack (Bytestream.constructBuffer
        ([0x47, 0x40, 0, 0x30, 17, 0x02, 15, 0xdf, 13, 0x45, 0x42, 0x50, 0x30, 0x08, 0, 0, 0, 0, 0, 0, 0, 0] ++
          List.replicate 166 0)) = some (1, p, t) ∧ t.size = 0 ∧ ¬ p.Repacked := by
  have framed : Framed
      ([0x47, 0x40, 0, 0x30, 17, 0x02, 15, 0xdf, 13, 0x45, 0x42, 0x50, 0x30, 0x08, 0, 0, 0, 0, 0, 0, 0, 0] ++
        List.replicate 166 0) :=
    ⟨by decide +kernel, by decide +kernel, by decide +kernel⟩
  refine ⟨_, _, framed.unpack (Bytestream.holds_constructBuffer (List.cons_ne_nil _ _)), by decide +kernel, ?_⟩
  rw [framed.repacked_iff_balanced, framed.balanced_iff]
  decide +kernel

end AtRunTime

end TsPacket
end Libts
