import Libts.Packet.Packet

/-!
# The length of a written packet

`ts_adaptation_field_size` and the bytes `ts_adaptation_field_pack` writes are two
computations over the same flags. They differ in the private data alone: `size` counts
`privateSize` for it, `pack` writes `privateBytes`. A written packet has 188 bytes exactly
when the two are equal (`length_bytes_iff`).
-/

namespace Libts
set_option autoImplicit false

open CArith

namespace TsAdaptationField

variable (af : TsAdaptationField)

/-- What `size` counts for the private data. -/
def privateSize : Nat :=
  (if af.transportPrivateDataFlag then af.privateData.size + 1 else 0) + if af.ebp.marker then 15 else 0

theorem size_eq : af.size = 1 + af.privateOffset + af.privateSize := by
  simp only [size, privateOffset, spliceOffset, opcrOffset, privateSize]
  omega

theorem length_privateBytes : af.privateBytes.length =
    if af.ebp.marker then 16 else if af.privateData.size ≠ 0 then af.privateData.size + 1 else 0 := by
  unfold privateBytes
  split
  · simp [TsEbp.identifier]
  · split
    · simp [Block.size]
      omega
    · rfl

theorem length_fieldBytes : af.fieldBytes.length + 1 = af.privateOffset + af.privateBytes.length := by
  have optional : ∀ (c : Bool) (bs : List UInt8), (if c then bs else []).length = if c then bs.length else 0 := by
    intro c bs
    cases c <;> rfl
  simp only [fieldBytes, List.length_append, optional, TsPcr.length_bytes, BigEndian.length_bytes, privateOffset,
    spliceOffset, opcrOffset]
  omega

/-- The bytes of a field in the room it is given. -/
theorem length_bytes (room : Nat) (positive : 0 < room) (small : room < 2 ^ 64)
    (fits : room = 1 ∨ af.size ≤ room) :
    (af.bytes room).length + (if room = 1 then 0 else af.privateSize) =
      room + if room = 1 then 0 else af.privateBytes.length := by
  obtain one | several := eq_or_ne room 1
  · simp [bytes, one]
  · have enough := fits.resolve_left several
    have fields := af.length_fieldBytes
    have stuffing := sizeSub_of_le enough (by omega)
    have size := af.size_eq
    simp only [bytes, if_neg several, List.length_append, BigEndian.length_bytes, List.length_replicate, stuffing]
    omega

end TsAdaptationField

namespace TsPacket

/-- The room `pack` gives the adaptation field. -/
def room (p : TsPacket) : Nat := sizeSub (188 - 4) p.payloadSize

/-- The number of `0xff` bytes does not wrap. -/
def StuffingFits (p : TsPacket) : Prop :=
  p.hasAdaptationField = true → p.room = 1 ∨ p.adaptationField.size ≤ p.room

/-- `size` counts what `pack` writes for the private data. -/
def Balanced (p : TsPacket) : Prop :=
  p.hasAdaptationField = true → p.room ≠ 1 →
    p.adaptationField.privateSize = p.adaptationField.privateBytes.length

variable {p : TsPacket}

theorem room_of_le (fits : p.payloadSize ≤ 184) : p.room = 184 - p.payloadSize :=
  sizeSub_of_le fits (by omega)

/-- The adaptation field control `pack` settles on: the payload bit says whether there is a
payload, the other bit is kept and set in a packet that would be too short. -/
def settledControl (p : TsPacket) : BitVec 2 :=
  (if p.payloadSize ≠ 0 then 1#2 else 0#2) |||
    if p.hasAdaptationField ∨ p.payloadSize < 184 then 2#2 else 0#2

theorem normalised_eq (p : TsPacket) :
    p.normalised = { p with adaptationFieldControl := p.settledControl } := by
  have bits : ∀ c : BitVec 2, (c ||| 1#2) = 1#2 ||| (if c &&& 2#2 != 0#2 then 2#2 else 0#2) ∧
      (c &&& ~~~1#2) = 0#2 ||| (if c &&& 2#2 != 0#2 then 2#2 else 0#2) := by
    decide
  have keeps : ∀ b : BitVec 2, b &&& 2#2 = 0#2 → ∀ field : Bool,
      ((b ||| (if field then 2#2 else 0#2)) &&& 2#2 != 0#2) = field := by
    decide
  have twice : ∀ b : BitVec 2, b ||| 2#2 ||| 2#2 = b ||| 2#2 ∧ b ||| 0#2 ||| 2#2 = b ||| 2#2 := by
    decide
  -- the second assignment, once the payload bit is `b`
  have second : ∀ b : BitVec 2, b &&& 2#2 = 0#2 →
      (if ({ p with adaptationFieldControl := b ||| (if p.hasAdaptationField then 2#2 else 0#2) } : TsPacket).size < 188
        then { p with adaptationFieldControl := b ||| (if p.hasAdaptationField then 2#2 else 0#2) ||| 2#2 }
        else { p with adaptationFieldControl := b ||| (if p.hasAdaptationField then 2#2 else 0#2) } : TsPacket) =
      { p with adaptationFieldControl :=
          b ||| if p.hasAdaptationField ∨ p.payloadSize < 184 then 2#2 else 0#2 } := by
    intro b low
    have same : ({ p with adaptationFieldControl := b ||| (if p.hasAdaptationField then 2#2 else 0#2) } : TsPacket).size =
        4 + (if p.hasAdaptationField then p.adaptationField.size else 0) + p.payloadSize := by
      unfold size
      rw [show ({ p with adaptationFieldControl := b ||| (if p.hasAdaptationField then 2#2 else 0#2) } :
        TsPacket).hasAdaptationField = p.hasAdaptationField from keeps b low _]
      rfl
    rw [same]
    by_cases field : p.hasAdaptationField = true
    · rw [if_pos field, if_pos field, if_pos (Or.inl field), (twice b).1]
      split <;> rfl
    · rw [if_neg field, if_neg field, (twice b).2]
      by_cases few : p.payloadSize < 184
      · rw [if_pos (by omega), if_pos (Or.inr few)]
      · rw [if_neg (by omega), if_neg (not_or.mpr ⟨field, few⟩)]
  unfold settledControl
  simp only [normalised]
  by_cases payload : p.payloadSize ≠ 0
  · rw [if_pos payload, if_pos payload, (bits _).1]
    exact second 1#2 rfl
  · rw [if_neg payload, if_neg payload, (bits _).2]
    exact second 0#2 rfl

theorem hasPayload_normalised (p : TsPacket) : p.normalised.hasPayload = decide (p.payloadSize ≠ 0) := by
  rw [normalised_eq, hasPayload, settledControl]
  split <;> split <;> simp_all

/-- The encoder keeps an adaptation field and adds one to a packet that is too short. -/
theorem hasAdaptationField_normalised (p : TsPacket) :
    p.normalised.hasAdaptationField = decide (p.hasAdaptationField ∨ p.payloadSize < 184) := by
  rw [normalised_eq, hasAdaptationField, settledControl]
  split <;> split <;> simp_all

/-- The sizes of a packet whose control is settled: an adaptation field has room, and
without one the payload fills the packet. -/
structure Sized (p : TsPacket) : Prop where
  payload : p.hasPayload = decide (p.payloadSize ≠ 0)
  field : if p.hasAdaptationField then p.payloadSize < 184 else p.payloadSize = 184

theorem Sized.payload_bytes (sized : p.Sized) : (if p.hasPayload then p.payloadData else []) = p.payloadData := by
  obtain empty | filled := eq_or_ne p.payloadData []
  · rw [empty]
    exact ite_self []
  · rw [if_pos]
    rw [sized.payload]
    simpa [payloadSize] using filled

theorem Sized.room_eq (sized : p.Sized) : p.room = 184 - p.payloadSize := by
  have field := sized.field
  exact room_of_le (by split at field <;> omega)

/-- The encoder settles a packet whose payload leaves room for its adaptation field. -/
theorem sized_normalised (few : p.payloadSize ≤ 184) (room : p.hasAdaptationField = true → p.payloadSize < 184) :
    p.normalised.Sized := by
  have same : p.normalised.payloadSize = p.payloadSize := by rw [normalised_eq]; rfl
  refine ⟨by rw [hasPayload_normalised, same], ?_⟩
  rw [hasAdaptationField_normalised, same]
  simp only [decide_eq_true_eq]
  split
  · rename_i has
    exact has.elim room id
  · rename_i full
    have := (not_or.mp full).2
    omega

/-- The bytes of a packet whose stuffing does not wrap. -/
theorem length_bytes_iff (sized : p.Sized) (fits : p.StuffingFits) : p.bytes.length = 188 ↔ p.Balanced := by
  have sizes := sized.field
  unfold bytes Balanced
  rw [sized.payload_bytes]
  by_cases field : p.hasAdaptationField = true
  · rw [if_pos field] at sizes
    have room := sized.room_eq
    have length := p.adaptationField.length_bytes p.room (by omega) (by omega) (fits field)
    rw [if_pos field, show sizeSub (188 - 4) p.payloadSize = p.room from rfl]
    simp only [List.length_append, BigEndian.length_bytes]
    obtain one | several := eq_or_ne p.room 1
    · rw [if_pos one, if_pos one] at length
      constructor
      · intro _ _ other
        exact absurd one other
      · intro _
        unfold payloadSize at room sizes
        omega
    · rw [if_neg several, if_neg several] at length
      unfold payloadSize at room sizes
      constructor
      · intro total _ _
        omega
      · intro balanced
        have := balanced field several
        omega
  · rw [if_neg field] at sizes
    unfold payloadSize at sizes
    constructor
    · intro _ has
      exact absurd has field
    · intro _
      rw [if_neg field]
      simp [sizes]

end TsPacket
end Libts
