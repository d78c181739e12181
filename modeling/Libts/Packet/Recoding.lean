import Libts.Packet.Clocks
import Libts.Packet.Repack

/-!
# Recoding a packet list

Packets that are read from what the encoder wrote and packed by a new list. The counters are counted
again from the payload bits, which the encoder has settled (`packed_packed`), and the clocks are read
again (`recoded_eq`). Packets that were decoded from whole blocks are ones that the encoder writes
without loss, private data apart (`Framed.encodable`).
-/

namespace Libts
set_option autoImplicit false

open CArith

namespace TsPacket

variable {p : TsPacket} {b : List UInt8}

/-- The control of a settled packet is not changed. -/
theorem Sized.normalised_eq (sized : p.Sized) : p.normalised = p := by
  have bits : ∀ (c : BitVec 2) (payload : Bool), (c &&& 1#2 != 0#2) = payload →
      (if payload then 1#2 else 0#2) ||| (if c &&& 2#2 != 0#2 then 2#2 else 0#2) = c := by
    decide
  have field : (if p.hasAdaptationField ∨ p.payloadSize < 184 then 2#2 else 0#2) =
      if p.adaptationFieldControl &&& 2#2 != 0#2 then 2#2 else 0#2 := by
    have size := sized.field
    by_cases has : p.hasAdaptationField = true
    · rw [if_pos (Or.inl has)]
      exact (if_pos has).symm
    · rw [if_neg has] at size
      rw [if_neg (not_or.mpr ⟨has, by omega⟩)]
      exact (if_neg has).symm
  have control : p.settledControl = p.adaptationFieldControl := by
    have settled := bits p.adaptationFieldControl _ sized.payload
    simp only [decide_eq_true_eq] at settled
    rw [settledControl, field, settled]
  rw [TsPacket.normalised_eq, control]

theorem Settled.setCounter (settled : p.Settled) (c : BitVec 4) :
    ({ p with continuityCounter := c } : TsPacket).Settled := by
  exact ⟨⟨settled.sized.payload, settled.sized.field⟩, settled.stuffing, settled.field, settled.silent⟩

theorem Settled.reread [Compilation] (settled : p.Settled) : p.reread.Settled := by
  obtain ⟨sized, stuffing, field, silent⟩ := settled
  have size : p.reread.adaptationField.size = p.adaptationField.size := by
    simp [TsPacket.reread, TsAdaptationField.reread, TsAdaptationField.size, field.marker]
  refine ⟨⟨sized.payload, sized.field⟩, ?_, ?_, silent⟩
  · intro has
    rw [size]
    exact stuffing has
  · exact ⟨field.extension, rfl, field.privateFlag, field.unrecognised, field.splice⟩

/-- The encoder settles the control without looking at clocks. -/
theorem normalised_reread [Compilation] (p : TsPacket) : p.reread.normalised = p.normalised.reread := by
  rw [TsPacket.normalised_eq, TsPacket.normalised_eq]
  rfl

end TsPacket

namespace TsPackets

variable {ps : List TsPacket}

theorem map_reread_packed [Compilation] (counters : List TsPacketsCounter) (ps : List TsPacket) :
    packed counters (ps.map TsPacket.reread) = (packed counters ps).map TsPacket.reread := by
  induction ps generalizing counters with
  | nil => rfl
  | cons p ps ih =>
    have pid : p.reread.pid = p.pid := rfl
    have payload : p.reread.hasPayload = p.hasPayload := rfl
    have first := TsPacket.normalised_reread { p with continuityCounter := (counterOf counters p.pid.toNat).setWidth 4 }
    rw [List.map_cons, packed, packed, List.map_cons, ← first]
    simp only [countPacket, pid, payload] at ih ⊢
    rw [ih]
    rfl

/-- Packing settled packets again from the same counters gives each the counter it has. -/
theorem packed_packed (counters : List TsPacketsCounter) (sized : ∀ p ∈ ps, p.Sized) :
    packed counters (packed counters ps) = packed counters ps := by
  induction ps generalizing counters with
  | nil => rfl
  | cons p ps ih =>
    obtain ⟨first, later⟩ := List.forall_mem_cons.mp sized
    have counter (c : BitVec 4) : ({ p with continuityCounter := c } : TsPacket).normalised =
        { p with continuityCounter := c } :=
      TsPacket.Sized.normalised_eq ⟨first.payload, first.field⟩
    simp only [packed, counter]
    rw [show countPacket counters { p with continuityCounter := (counterOf counters p.pid.toNat).setWidth 4 } =
      countPacket counters p from rfl, ih _ later]

/-- Packets that were read from their bytes and packed by a new list. -/
def recoded [Compilation] (ps : List TsPacket) : List TsPacket := packed [] (ps.map TsPacket.reread)

theorem recoded_eq [Compilation] (ps : List TsPacket) : recoded ps = (packed [] ps).map TsPacket.reread :=
  map_reread_packed [] ps

theorem settled_numbered (counters : List TsPacketsCounter) (settled : ∀ p ∈ ps, p.Settled) :
    ∀ p ∈ packed counters ps, p.Settled := by
  induction ps generalizing counters with
  | nil => exact List.forall_mem_nil _
  | cons p ps ih =>
    obtain ⟨first, later⟩ := List.forall_mem_cons.mp settled
    have numbered := first.setCounter ((counterOf counters p.pid.toNat).setWidth 4)
    rw [packed, numbered.sized.normalised_eq]
    exact List.forall_mem_cons.mpr ⟨numbered, ih _ later⟩

/-- Settled packets, each read from its bytes. -/
theorem map_wirePacket [Compilation] (settled : ∀ p ∈ ps, p.Settled) :
    (ps.map fun p => TsPacket.wirePacket p.bytes) = ps.map TsPacket.reread := by
  apply List.map_congr_left
  intro p member
  have whole := (settled p member).wirePacket_eq []
  rw [List.append_nil] at whole
  exact whole

end TsPackets

namespace TsAdaptationField

theorem sound_default : ({} : TsAdaptationField).Sound := ⟨rfl, rfl, rfl, rfl, fun _ => rfl⟩

/-- A field that was decoded is one that the decoder restores. -/
theorem sound_wireField [Compilation] {l : List UInt8} (keeps : ¬ LosesPrivateData l) : (wireField l).Sound := by
  by_cases flag : (wireFlags l).transportPrivateDataFlag = true
  · have filled : (wirePrivate l).size ≠ 0 := fun empty => keeps ⟨flag, Or.inl empty⟩
    have unmarked : (TsEbp.ofData (wirePrivate l).data).marker = false := by
      rw [TsEbp.ofData_marker]
      exact Bool.eq_false_iff.mpr fun marker => keeps ⟨flag, Or.inr marker⟩
    have data : (wireField l).privateData = wirePrivate l := if_pos flag
    have ebp : (wireField l).ebp = TsEbp.ofData (wirePrivate l).data := if_pos flag
    refine ⟨rfl, by rw [ebp, unmarked], ?_, by rw [data, unmarked], fun clear => ?_⟩
    · rw [data, decide_eq_true filled]
      exact flag
    · exact if_neg (Bool.eq_false_iff.mp clear)
  · have data : (wireField l).privateData = default := if_neg flag
    have ebp : (wireField l).ebp = {} := if_neg flag
    refine ⟨rfl, by rw [ebp], ?_, by rw [data]; rfl, fun clear => ?_⟩
    · rw [data]
      exact Bool.eq_false_iff.mpr flag
    · exact if_neg (Bool.eq_false_iff.mp clear)

end TsAdaptationField

namespace TsPacket

variable {b : List UInt8}

theorem sound_wirePacket [Compilation] (keeps : ¬ LosesPrivateData b) : (wirePacket b).adaptationField.Sound := by
  by_cases has : (wireHeader b).hasAdaptationField = true
  · simp only [wirePacket, if_pos has, wireAdaptationField]
    split
    · exact TsAdaptationField.sound_default
    · rename_i nonzero
      exact TsAdaptationField.sound_wireField fun loses => keeps ⟨has, nonzero, loses⟩
  · simp only [wirePacket, if_neg has]
    exact TsAdaptationField.sound_default

/-- **A whole block is decoded to a packet that can be encoded**, as long as the encoder does not lose its
private data. -/
theorem Framed.encodable [Compilation] (framed : Framed b) (keeps : ¬ LosesPrivateData b) :
    (wirePacket b).Encodable := by
  have size := framed.payloadSize_eq
  have offset := framed.offset_le
  have few := payloadSize_wirePacket_le b
  refine ⟨sound_wirePacket keeps, ?_⟩
  by_cases has : (wireHeader b).hasAdaptationField = true
  · have field : (wirePacket b).hasAdaptationField = true := has
    have stuffing := framed.stuffingFits keeps (by rw [framed.hasAdaptationField, has])
    rw [framed.room has] at stuffing
    rw [payloadOffset, if_pos has] at size offset
    have same : (wirePacket b).normalised.adaptationField = (wirePacket b).adaptationField := by rw [normalised_eq]
    rw [same] at stuffing
    split
    · rename_i flag
      refine ⟨field, ?_⟩
      obtain zero | fits := stuffing
      · -- the field of length 0 has no flags
        have none : fieldLength b = 0 := UInt8.toNat_inj.mp (by simpa using zero)
        have empty : (wirePacket b).adaptationField = {} := by
          simp only [wirePacket, if_pos has, wireAdaptationField, if_pos none]
        rw [empty] at flag
        cases flag
      · omega
    · exact ⟨few, fun _ => by omega⟩
  · have none : (wirePacket b).adaptationField = {} := if_neg has
    have clear : ¬ (wirePacket b).adaptationField.anyFlag = true := by
      rw [none]
      decide
    rw [if_neg clear]
    exact ⟨few, fun field => absurd field has⟩

end TsPacket
end Libts
