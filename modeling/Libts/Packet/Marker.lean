import Libts.Packet.Length

/-!
# Packets built with a marker

A packet whose adaptation field carries a marker is written with the sixteen bytes of the
marker, but `ts_adaptation_field_size` counts fifteen for it, and the private data once
more when it is flagged (`length_marked`). No such packet comes out as 188 bytes.
-/

namespace Libts
set_option autoImplicit false

/-- The private data of a marker, as the encoder spells it. -/
def TsEbp.bytes (ebp : TsEbp) : List UInt8 :=
  BigEndian.bytes 1 0xdf ++ BigEndian.bytes 1 13 ++ TsEbp.identifier ++ BigEndian.bytes 1 0x08 ++
    BigEndian.bytes 8 ebp.time.toNat

theorem TsEbp.length_bytes (ebp : TsEbp) : ebp.bytes.length = 15 := by
  simp [TsEbp.bytes, TsEbp.identifier]

open CArith

namespace TsPacket

/-- A packet built around a marker: the private data is the marker's when it is flagged and
absent when it is not, and the payload leaves the room that `ts_adaptation_field_size` asks for. -/
structure Marked (p : TsPacket) : Prop where
  field : p.hasAdaptationField = true
  marker : p.adaptationField.ebp.marker = true
  privateData : p.adaptationField.privateData.data =
    if p.adaptationField.transportPrivateDataFlag then p.adaptationField.ebp.bytes else []
  fits : 4 + p.adaptationField.size + p.payloadSize ≤ 188

/-- The packet is written as 188 bytes, and the marker, the splice countdown and the payload
are read back from them. -/
def MarkerSurvives [Compilation] (p : TsPacket) : Prop :=
  ∀ s : Bytestream, s.attached = true → ∃ bs : List UInt8,
    (p.pack s).1 = 1 ∧ (p.pack s).2.2.store = s.store ++ bs ∧ bs.length = 188 ∧
      ∀ t : Bytestream, t.Holds bs → ∃ q u, construct.unpack t = some (1, q, u) ∧
        q.adaptationField.ebp = p.adaptationField.ebp ∧
        q.adaptationField.spliceCountdown = p.adaptationField.spliceCountdown ∧ q.payloadData = p.payloadData

variable {p : TsPacket}

/-- The marker takes one byte more than `ts_adaptation_field_size` counts for it, and the
private data it counts beside the marker is not written. -/
theorem length_marked (marked : p.Marked) :
    p.normalised.bytes.length = if p.adaptationField.transportPrivateDataFlag then 173 else 189 := by
  obtain ⟨field, marker, privateData, fits⟩ := marked
  have least : 17 ≤ p.adaptationField.size := by
    unfold TsAdaptationField.size
    rw [if_pos marker]
    omega
  have sized : p.normalised.Sized := sized_normalised (by omega) (fun _ => by omega)
  have room := sized.room_eq
  have same : p.normalised.payloadSize = p.payloadSize ∧ p.normalised.adaptationField = p.adaptationField := by
    rw [normalised_eq]
    exact ⟨rfl, rfl⟩
  have has : p.normalised.hasAdaptationField = true := by
    rw [hasAdaptationField_normalised]
    exact decide_eq_true (Or.inl field)
  have length := p.adaptationField.length_bytes (184 - p.payloadSize) (by omega) (by omega) (by omega)
  have data : p.adaptationField.privateData.size =
      if p.adaptationField.transportPrivateDataFlag then 15 else 0 := by
    rw [Block.size, privateData]
    split
    · exact TsEbp.length_bytes _
    · rfl
  have total : p.normalised.bytes.length =
      4 + (p.adaptationField.bytes (184 - p.payloadSize)).length + p.payloadSize := by
    unfold bytes
    rw [sized.payload_bytes, if_pos has, show sizeSub (188 - 4) p.normalised.payloadSize = p.normalised.room from rfl,
      room, same.1, same.2]
    simp only [List.length_append, BigEndian.length_bytes]
    rw [show p.normalised.payloadData.length = p.normalised.payloadSize from rfl, same.1]
  rw [if_neg (by omega), if_neg (by omega), TsAdaptationField.length_privateBytes, if_pos marker,
    TsAdaptationField.privateSize, if_pos marker, data] at length
  rw [total]
  cases flag : p.adaptationField.transportPrivateDataFlag
  · rw [flag] at length
    rw [if_neg Bool.false_ne_true] at length ⊢
    omega
  · rw [flag] at length
    rw [if_pos rfl, if_pos rfl] at length
    rw [if_pos rfl]
    omega

theorem MarkerSurvives.length [Compilation] (survives : p.MarkerSurvives) : p.normalised.bytes.length = 188 := by
  obtain ⟨bs, -, stored, length, -⟩ := survives (Bytestream.constructBuffer []) rfl
  rw [pack_eq p rfl, Bytestream.store_write rfl] at stored
  rw [List.append_cancel_left stored, length]

/-- **No packet with a marker survives**: with the private data flag it is written as 173
bytes, without the flag as 189. -/
theorem not_markerSurvives [Compilation] (marked : p.Marked) : ¬ p.MarkerSurvives := by
  intro survives
  have written := length_marked marked
  rw [survives.length] at written
  split at written <;> contradiction

section AtRunTime
attribute [local instance] Compilation.atRunTime

/-- A marker announced as private data, with the countdown and one byte of payload. -/
theorem not_markerSurvives_flagged :
    ¬ ({ adaptationFieldControl := 3#2, payloadData := [7],
         adaptationField := { transportPrivateDataFlag := true, splicingPointFlag := true, spliceCountdown := 3,
                              ebp := { marker := true, time := 5#64 },
                              privateData := Block.take (TsEbp.bytes { marker := true, time := 5#64 }) 15 } } :
        TsPacket).MarkerSurvives :=
  not_markerSurvives ⟨rfl, rfl, by decide, by decide⟩

/-- A marker alone is written as 189 bytes. -/
theorem not_markerSurvives_alone :
    ({ adaptationFieldControl := 2#2, adaptationField := { ebp := { marker := true } } } : TsPacket).Marked ∧
      ¬ ({ adaptationFieldControl := 2#2, adaptationField := { ebp := { marker := true } } } :
        TsPacket).MarkerSurvives := by
  have marked : ({ adaptationFieldControl := 2#2, adaptationField := { ebp := { marker := true } } } :
      TsPacket).Marked := ⟨rfl, rfl, rfl, by decide⟩
  refine ⟨marked, ?_⟩
  intro survives
  have written := length_marked marked
  rw [survives.length] at written
  contradiction

end AtRunTime

end TsPacket
end Libts
