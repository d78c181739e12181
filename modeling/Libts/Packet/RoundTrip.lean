import Libts.Packet.Length
import Libts.Packet.Packets
import Mathlib.Data.List.Forall2

/-!
# Decoding what was encoded

A packet whose adaptation field says the same thing twice (`TsAdaptationField.Sound`) and
whose sizes fit into 188 bytes is read back from the bytes the encoder writes for it, up
to the numbers of its clocks (`SameFields`). The blocks of a packet list are framed
whatever follows them, so a whole list is read back.
-/

namespace Libts
set_option autoImplicit false

open CArith

namespace TsAdaptationField

/-- The field without its clocks. -/
def blank (af : TsAdaptationField) : TsAdaptationField :=
  { af with pcr := 0, opcr := 0, ebp := { af.ebp with time := 0 } }

/-- Some flag is set. -/
def anyFlag (af : TsAdaptationField) : Bool :=
  af.discontinuityIndicator || af.randomAccessIndicator || af.elementaryStreamPriorityIndicator || af.pcrFlag ||
    af.opcrFlag || af.splicingPointFlag || af.transportPrivateDataFlag

/-- What the decoder restores: no extension, no marker, private data of a kind it keeps, and
nothing behind a flag that is not set. -/
structure Sound (af : TsAdaptationField) : Prop where
  extension : af.adaptationFieldExtensionFlag = false
  marker : af.ebp.marker = false
  privateFlag : af.transportPrivateDataFlag = decide (af.privateData.size ≠ 0)
  unrecognised : (TsEbp.ofData af.privateData.data).marker = false
  splice : af.splicingPointFlag = false → af.spliceCountdown = 0

variable {af : TsAdaptationField}

theorem Sound.privateSize_eq (sound : af.Sound) : af.privateSize = af.privateBytes.length := by
  rw [length_privateBytes, privateSize, sound.marker, sound.privateFlag]
  simp

theorem Sound.size_of_not_anyFlag (sound : af.Sound) (clear : af.anyFlag = false) : af.size = 2 := by
  simp only [anyFlag, Bool.or_eq_false_iff] at clear
  simp [size, clear, sound.marker]

/-- The bytes after the length byte, and what follows the field. -/
def fieldWire (af : TsAdaptationField) (tail : List UInt8) : List UInt8 :=
  BigEndian.bytes 1 af.flags ++ (af.fieldBytes ++ tail)

section FieldWire

variable (af) (tail : List UInt8)

theorem wireFlags_fieldWire : wireFlags (af.fieldWire tail) =
    { discontinuityIndicator := af.discontinuityIndicator
      randomAccessIndicator := af.randomAccessIndicator
      elementaryStreamPriorityIndicator := af.elementaryStreamPriorityIndicator
      pcrFlag := af.pcrFlag
      opcrFlag := af.opcrFlag
      splicingPointFlag := af.splicingPointFlag
      transportPrivateDataFlag := af.transportPrivateDataFlag
      adaptationFieldExtensionFlag := af.adaptationFieldExtensionFlag } := by
  have byte : (UInt8.ofNat af.flags).toNat = af.flags := by
    rw [UInt8.toNat_ofNat']
    exact Nat.mod_eq_of_lt af.flags_lt
  rw [wireFlags, fieldWire, BigEndian.bytes_one, List.singleton_append, List.headD_cons, byte, setFlags_flags]
  rfl

theorem privateOffset_fieldWire : (wireFlags (af.fieldWire tail)).privateOffset = af.privateOffset := by
  rw [wireFlags_fieldWire]
  rfl

theorem drop_spliceOffset : (af.fieldWire tail).drop af.spliceOffset =
    (if af.splicingPointFlag then BigEndian.bytes 1 af.spliceCountdown.toNat else []) ++ (af.privateBytes ++ tail) := by
  have clocks : (BigEndian.bytes 1 af.flags ++ (if af.pcrFlag then TsPcr.bytes af.pcr else []) ++
      (if af.opcrFlag then TsPcr.bytes af.opcr else [])).length = af.spliceOffset := by
    unfold spliceOffset opcrOffset
    split <;> split <;> simp
  have parts : af.fieldWire tail = (BigEndian.bytes 1 af.flags ++ (if af.pcrFlag then TsPcr.bytes af.pcr else []) ++
      (if af.opcrFlag then TsPcr.bytes af.opcr else [])) ++
      ((if af.splicingPointFlag then BigEndian.bytes 1 af.spliceCountdown.toNat else []) ++
        (af.privateBytes ++ tail)) := by
    simp only [fieldWire, fieldBytes, List.append_assoc]
  rw [parts, ← clocks, List.drop_left]

theorem drop_privateOffset : (af.fieldWire tail).drop af.privateOffset = af.privateBytes ++ tail := by
  have rest : (if af.splicingPointFlag then BigEndian.bytes 1 af.spliceCountdown.toNat else []).length =
      if af.splicingPointFlag then 1 else 0 := by
    split <;> simp
  rw [privateOffset, ← rest, ← List.drop_drop, drop_spliceOffset, List.drop_left]

theorem getD_eq_headD_drop (l : List UInt8) (n : Nat) : l.getD n 0 = (l.drop n).headD 0 := by
  simp [List.getD_eq_getElem?_getD, List.headD_eq_head?_getD, List.head?_drop]

variable {af}

/-- The splice countdown is where it is looked for. -/
theorem getD_spliceOffset (flag : af.splicingPointFlag = true) :
    (af.fieldWire tail).getD af.spliceOffset 0 = af.spliceCountdown := by
  rw [getD_eq_headD_drop, drop_spliceOffset, if_pos flag, BigEndian.bytes_one, UInt8.ofNat_toNat]
  rfl

/-- So is the private data with its size. -/
theorem Sound.drop_private (sound : af.Sound) (flag : af.transportPrivateDataFlag = true) :
    (af.fieldWire tail).drop af.privateOffset = UInt8.ofNat af.privateData.size :: (af.privateData.data ++ tail) := by
  rw [sound.privateFlag, decide_eq_true_eq] at flag
  rw [drop_privateOffset, privateBytes, sound.marker, if_neg (by decide), if_pos flag,
    BigEndian.bytes_one]
  rfl

theorem Sound.getD_private (sound : af.Sound) (flag : af.transportPrivateDataFlag = true) :
    (af.fieldWire tail).getD af.privateOffset 0 = UInt8.ofNat af.privateData.size := by
  rw [getD_eq_headD_drop, sound.drop_private tail flag]
  rfl

theorem toNat_size (b : Block) : (UInt8.ofNat b.size).toNat = b.size := by
  rw [UInt8.toNat_ofNat']
  exact Nat.mod_eq_of_lt b.fits

theorem Sound.wirePrivate_eq (sound : af.Sound) (flag : af.transportPrivateDataFlag = true) :
    wirePrivate (af.fieldWire tail) = af.privateData := by
  apply Block.ext
  rw [wirePrivate, privateOffset_fieldWire, sound.getD_private tail flag, ← List.drop_drop,
    sound.drop_private tail flag]
  simp only [Block.take, toNat_size, List.drop_succ_cons, List.drop_zero]
  exact List.take_left' rfl

theorem Sound.wireSize_succ (sound : af.Sound) : wireSize (af.fieldWire tail) + 1 = af.size := by
  rw [size_eq, wireSize, privateOffset_fieldWire, sound.privateSize_eq, length_privateBytes, sound.marker]
  rw [show (wireFlags (af.fieldWire tail)).transportPrivateDataFlag = af.transportPrivateDataFlag by
    rw [wireFlags_fieldWire]]
  by_cases flag : af.transportPrivateDataFlag = true
  · have nonempty : af.privateData.size ≠ 0 := by
      rw [sound.privateFlag, decide_eq_true_eq] at flag
      exact flag
    rw [if_pos flag, sound.getD_private tail flag, toNat_size, if_neg (by decide), if_pos nonempty]
    omega
  · have empty : ¬ af.privateData.size ≠ 0 := by
      rw [sound.privateFlag, decide_eq_true_eq] at flag
      exact flag
    rw [if_neg flag, if_neg (by decide), if_neg empty]
    omega

/-- The field the decoder makes of the written one. -/
theorem Sound.blank_wireField [Compilation] (sound : af.Sound) : (wireField (af.fieldWire tail)).blank = af.blank := by
  have flags := wireFlags_fieldWire af tail
  have splice : (wireField (af.fieldWire tail)).spliceCountdown = af.spliceCountdown := by
    simp only [wireField, wireClocks, flags]
    by_cases flag : af.splicingPointFlag = true
    · rw [if_pos flag]
      exact getD_spliceOffset tail flag
    · rw [if_neg flag, sound.splice (Bool.eq_false_iff.mpr flag)]
  have data : (wireField (af.fieldWire tail)).privateData = af.privateData := by
    simp only [wireField, flags]
    by_cases flag : af.transportPrivateDataFlag = true
    · rw [if_pos flag, sound.wirePrivate_eq tail flag]
    · rw [if_neg flag]
      rw [sound.privateFlag, decide_eq_true_eq, Classical.not_not] at flag
      exact Block.ext (List.eq_nil_of_length_eq_zero flag).symm
  have marker : (wireField (af.fieldWire tail)).ebp.marker = false := by
    simp only [wireField, flags]
    by_cases flag : af.transportPrivateDataFlag = true
    · rw [if_pos flag, sound.wirePrivate_eq tail flag, sound.unrecognised]
    · rw [if_neg flag]
  have rest : (wireField (af.fieldWire tail)).blank =
      { wireFlags (af.fieldWire tail) with
        adaptationFieldExtensionFlag := false
        spliceCountdown := (wireField (af.fieldWire tail)).spliceCountdown
        privateData := (wireField (af.fieldWire tail)).privateData
        ebp := { marker := (wireField (af.fieldWire tail)).ebp.marker } } := by
    rw [flags]
    simp only [blank, wireField, wireClocks, flags]
  rw [rest, splice, data, marker, flags]
  simp only [blank, sound.marker, sound.extension]

end FieldWire

/-- A field of which nothing is said. -/
theorem Sound.blank_eq (sound : af.Sound) (clear : af.anyFlag = false) : af.blank = {} := by
  simp only [anyFlag, Bool.or_eq_false_iff] at clear
  obtain ⟨⟨⟨⟨⟨⟨discontinuity, random⟩, priority⟩, pcr⟩, opcr⟩, splicing⟩, data⟩ := clear
  have empty : af.privateData = default := by
    have none := sound.privateFlag
    rw [data] at none
    have zero : af.privateData.size = 0 := by simpa using none.symm
    exact Block.ext (List.eq_nil_of_length_eq_zero zero)
  simp only [blank, discontinuity, random, priority, pcr, opcr, splicing, data, sound.extension, sound.marker,
    sound.splice splicing, empty]

end TsAdaptationField

namespace TsPacket

/-- The packet without the numbers of its clocks. -/
def blank (p : TsPacket) : TsPacket := { p with adaptationField := p.adaptationField.blank }

/-- Equal in every header field, adaptation flag, splice countdown, private data and payload
byte. -/
def SameFields (p q : TsPacket) : Prop := p.blank = q.blank

/-- A packet the encoder can write without loss: its flags are carried by an adaptation field
that fits next to the payload, or there is none to carry. -/
structure Encodable (p : TsPacket) : Prop where
  field : p.adaptationField.Sound
  room : if p.adaptationField.anyFlag
    then p.hasAdaptationField = true ∧ 4 + p.adaptationField.size + p.payloadSize ≤ 188
    else p.payloadSize ≤ 184 ∧ (p.hasAdaptationField = true → p.payloadSize ≤ 183)

/-- The same once the encoder has settled the control. -/
structure Settled (p : TsPacket) : Prop where
  sized : p.Sized
  stuffing : p.StuffingFits
  field : p.adaptationField.Sound
  silent : p.hasAdaptationField = false ∨ p.room = 1 → p.adaptationField.anyFlag = false

variable {p : TsPacket}

theorem Encodable.setCounter (h : p.Encodable) (c : BitVec 4) :
    ({ p with continuityCounter := c } : TsPacket).Encodable := ⟨h.field, h.room⟩

theorem Encodable.settled (h : p.Encodable) : p.normalised.Settled := by
  have room := h.room
  have size := p.adaptationField.size_eq
  have offset := TsAdaptationField.privateOffset_pos p.adaptationField
  have few : p.payloadSize ≤ 184 := by split at room <;> omega
  have beside : p.hasAdaptationField = true → p.payloadSize < 184 := by
    intro has
    split at room
    · omega
    · have := room.2 has
      omega
  have sized := sized_normalised few beside
  have left : p.normalised.room = 184 - p.payloadSize := by
    rw [sized.room_eq, normalised_eq]
    rfl
  have field : p.normalised.adaptationField = p.adaptationField := by rw [normalised_eq]
  have control := hasAdaptationField_normalised p
  refine ⟨sized, ?_, by rw [field]; exact h.field, ?_⟩
  · intro has
    rw [control, decide_eq_true_eq] at has
    rw [left, field]
    split at room
    · omega
    · rename_i clear
      have two := h.field.size_of_not_anyFlag (Bool.eq_false_iff.mpr clear)
      have := has.elim beside id
      omega
  · intro none
    rw [left] at none
    rw [field]
    by_contra flag
    rw [Bool.not_eq_false] at flag
    rw [if_pos flag] at room
    rcases none with absent | one
    · rw [control, decide_eq_false_iff_not] at absent
      exact absent (Or.inl room.1)
    · omega

/-- A settled packet is written in 188 bytes. -/
theorem Settled.length_bytes (h : p.Settled) : p.bytes.length = 188 :=
  (length_bytes_iff h.sized h.stuffing).2 fun _ _ => h.field.privateSize_eq

section Wire

variable (rest : List UInt8)

theorem wireHeader_bytes : wireHeader (p.bytes ++ rest) =
    { transportErrorIndicator := p.transportErrorIndicator
      payloadUnitStartIndicator := p.payloadUnitStartIndicator
      transportPriority := p.transportPriority
      pid := p.pid
      transportScramblingControl := p.transportScramblingControl
      adaptationFieldControl := p.adaptationFieldControl
      continuityCounter := p.continuityCounter } := by
  have word : (p.bytes ++ rest).take 4 = BigEndian.bytes 4 p.header := by
    unfold bytes
    rw [List.append_assoc, List.append_assoc]
    exact List.take_left' (BigEndian.length_bytes 4 _)
  have value : BigEndian.value (BigEndian.bytes 4 p.header) = p.header := by
    rw [BigEndian.value_bytes]
    exact Nat.mod_eq_of_lt p.header_lt
  rw [wireHeader, word, value, setHeader_header]
  rfl

theorem hasAdaptationField_wireHeader : (wireHeader (p.bytes ++ rest)).hasAdaptationField = p.hasAdaptationField := by
  rw [wireHeader_bytes]
  rfl

theorem hasPayload_wireHeader : (wireHeader (p.bytes ++ rest)).hasPayload = p.hasPayload := by
  rw [wireHeader_bytes]
  rfl

/-- What follows the header word. -/
theorem drop_header : (p.bytes ++ rest).drop 4 =
    (if p.hasAdaptationField then p.adaptationField.bytes p.room else []) ++
      ((if p.hasPayload then p.payloadData else []) ++ rest) := by
  unfold bytes
  rw [List.append_assoc, List.append_assoc, List.drop_left' (BigEndian.length_bytes 4 _)]
  rfl

/-- What follows the length byte of an adaptation field that is not empty. -/
theorem drop_length (has : p.hasAdaptationField = true) (present : p.room ≠ 1) :
    ∃ tail, (p.bytes ++ rest).drop 5 = p.adaptationField.fieldWire tail := by
  refine ⟨List.replicate (sizeSub p.room p.adaptationField.size) 0xff ++
    ((if p.hasPayload then p.payloadData else []) ++ rest), ?_⟩
  rw [show 5 = 4 + 1 from rfl, ← List.drop_drop, drop_header, if_pos has, TsAdaptationField.bytes, if_neg present,
    List.append_assoc, List.drop_left' (BigEndian.length_bytes 1 _), TsAdaptationField.fieldWire]
  simp only [List.append_assoc]

variable (h : p.Settled)
include h

theorem Settled.room_eq : p.room = 184 - p.payloadSize := h.sized.room_eq

theorem Settled.room_pos (has : p.hasAdaptationField = true) : 0 < p.room := by
  have field := h.sized.field
  rw [if_pos has] at field
  rw [h.room_eq]
  omega

theorem Settled.fieldLength (has : p.hasAdaptationField = true) :
    (fieldLength (p.bytes ++ rest)).toNat = p.room - 1 := by
  have positive := h.room_pos has
  have room := h.room_eq
  have byte : TsPacket.fieldLength (p.bytes ++ rest) = UInt8.ofNat (sizeSub p.room 1) := by
    rw [TsPacket.fieldLength, TsAdaptationField.getD_eq_headD_drop, drop_header, if_pos has,
      TsAdaptationField.bytes, BigEndian.bytes_one]
    rfl
  rw [byte, sizeSub_of_le (by omega) (by omega), UInt8.toNat_ofNat']
  exact Nat.mod_eq_of_lt (by omega)

theorem Settled.fieldLength_eq_zero (has : p.hasAdaptationField = true) :
    TsPacket.fieldLength (p.bytes ++ rest) = 0 ↔ p.room = 1 := by
  have positive := h.room_pos has
  rw [← UInt8.toNat_inj, h.fieldLength rest has, UInt8.toNat_zero]
  omega

theorem Settled.payloadOffset : payloadOffset (p.bytes ++ rest) = 188 - p.payloadSize := by
  have room := h.room_eq
  have field := h.sized.field
  rw [TsPacket.payloadOffset, hasAdaptationField_wireHeader]
  by_cases has : p.hasAdaptationField = true
  · have positive := h.room_pos has
    rw [if_pos has, h.fieldLength rest has]
    rw [if_pos has] at field
    omega
  · rw [if_neg has] at field
    rw [if_neg has]
    omega

/-- The payload lies where it is looked for. -/
theorem Settled.payload : ((p.bytes ++ rest).drop (188 - p.payloadSize)).take p.payloadSize = p.payloadData := by
  have length := h.length_bytes
  have split : p.bytes = (BigEndian.bytes 4 p.header ++
      if p.hasAdaptationField then p.adaptationField.bytes p.room else []) ++ p.payloadData := by
    conv_lhs => rw [bytes, h.sized.payload_bytes]
    rfl
  have front : (BigEndian.bytes 4 p.header ++
      if p.hasAdaptationField then p.adaptationField.bytes p.room else []).length = 188 - p.payloadSize := by
    rw [split, List.length_append] at length
    unfold payloadSize
    omega
  rw [split, List.append_assoc, List.drop_left' front]
  exact List.take_left' rfl

theorem Settled.wireAdaptationField [Compilation] (has : p.hasAdaptationField = true) :
    (wireAdaptationField (p.bytes ++ rest)).blank = p.adaptationField.blank := by
  rw [TsPacket.wireAdaptationField]
  obtain one | several := eq_or_ne p.room 1
  · rw [if_pos ((h.fieldLength_eq_zero rest has).2 one), h.field.blank_eq (h.silent (Or.inr one))]
    rfl
  · obtain ⟨tail, wire⟩ := drop_length rest has several
    rw [if_neg (fun zero => several ((h.fieldLength_eq_zero rest has).1 zero)), wire, h.field.blank_wireField]

/-- A packet the encoder has written is framed whatever follows it. -/
theorem Settled.framed : Framed (p.bytes ++ rest) := by
  have length := h.length_bytes
  have sizes := h.sized.field
  refine ⟨by rw [List.length_append]; omega, ?_, ?_⟩
  · intro has
    rw [hasAdaptationField_wireHeader] at has
    have room := h.room_eq
    obtain one | several := eq_or_ne p.room 1
    · left
      exact (h.fieldLength_eq_zero rest has).2 one
    · right
      obtain ⟨tail, wire⟩ := drop_length rest has several
      have size := h.field.wireSize_succ tail
      have fits := (h.stuffing has).resolve_left several
      rw [wire, h.fieldLength rest has, List.length_append]
      omega
  · rw [hasPayload_wireHeader, h.sized.payload, h.payloadOffset]
    simp only [decide_eq_true_eq]
    split <;> omega

/-- A packet the encoder has written is read back. -/
theorem Settled.wirePacket [Compilation] : SameFields (wirePacket (p.bytes ++ rest)) p := by
  have payload : (if p.hasPayload then
      ((p.bytes ++ rest).drop (188 - p.payloadSize)).take (188 - (188 - p.payloadSize)) else []) = p.payloadData := by
    have sizes := h.sized.field
    have size : 188 - (188 - p.payloadSize) = p.payloadSize := by split at sizes <;> omega
    rw [size, h.payload rest, h.sized.payload_bytes]
  have field : (if p.hasAdaptationField then TsPacket.wireAdaptationField (p.bytes ++ rest) else {}).blank =
      p.adaptationField.blank := by
    by_cases has : p.hasAdaptationField = true
    · rw [if_pos has, h.wireAdaptationField rest has]
    · rw [if_neg has, h.field.blank_eq (h.silent (Or.inl (Bool.eq_false_iff.mpr has)))]
      rfl
  unfold SameFields blank TsPacket.wirePacket
  rw [hasAdaptationField_wireHeader, hasPayload_wireHeader, h.payloadOffset, payload]
  simp only [field, wireHeader_bytes]

end Wire

end TsPacket

namespace TsPackets
open TsPacket

variable {ps : List TsPacket}

theorem settled_packed (encodable : ∀ p ∈ ps, p.Encodable) (counters : List TsPacketsCounter) :
    ∀ p ∈ packed counters ps, p.Settled := by
  induction ps generalizing counters with
  | nil =>
    intro p member
    cases member
  | cons p ps ih =>
    intro q member
    rw [packed, List.mem_cons] at member
    rcases member with rfl | member
    · exact ((encodable p List.mem_cons_self).setCounter _).settled
    · exact ih (fun r later => encodable r (List.mem_cons_of_mem p later)) _ q member

theorem length_flatten {n : Nat} {bs : List (List UInt8)} (widths : ∀ b ∈ bs, b.length = n) :
    bs.flatten.length = n * bs.length := by
  induction bs with
  | nil => rfl
  | cons b bs ih =>
    rw [List.flatten_cons, List.length_append, widths b List.mem_cons_self,
      ih (fun c later => widths c (List.mem_cons_of_mem b later)), List.length_cons, Nat.mul_succ, Nat.add_comm]

theorem widths_settled (settled : ∀ p ∈ ps, p.Settled) : ∀ b ∈ ps.map bytes, b.length = 188 := by
  intro b member
  obtain ⟨p, there, rfl⟩ := List.mem_map.mp member
  exact (settled p there).length_bytes

/-- Settled packets are read back from their bytes. -/
theorem unpack_settled [Compilation] (nonempty : ps ≠ []) (settled : ∀ p ∈ ps, p.Settled) :
    ∃ t, construct.unpack (Bytestream.constructBuffer (ps.map bytes).flatten) =
      some ((ps.length : Int), { list := ps.map fun p => wirePacket p.bytes }, t) := by
  have widths := widths_settled settled
  have framed : ∀ b ∈ ps.map bytes, ∀ rest, Framed (b ++ rest) := by
    intro b member rest
    obtain ⟨p, there, rfl⟩ := List.mem_map.mp member
    exact (settled p there).framed rest
  have filled : (ps.map bytes).flatten ≠ [] := by
    obtain ⟨p, qs, rfl⟩ := List.exists_cons_of_ne_nil nonempty
    have width := widths p.bytes (List.mem_map_of_mem List.mem_cons_self)
    intro empty
    simp at empty
    simp [empty.1] at width
  have h := Bytestream.holds_constructBuffer filled
  have total := length_flatten widths
  have ended := h.skip (n := 188 * (ps.map bytes).length) (by omega)
  have valid := ended.isValid
  have run := unpackLoop_blocks _ h widths framed 0 []
  refine ⟨(Bytestream.constructBuffer (ps.map bytes).flatten).skip (188 * (ps.map bytes).length), ?_⟩
  rw [List.length_map] at valid
  simp only [unpack, construct, run, Option.map_some, List.nil_append, List.map_map, List.length_map, Int.zero_add,
    Function.comp_def, if_pos valid]

/-- **A packet list is read back** from the bytes it was written to: each packet with the counter of its PID and the
settled control, in 188 bytes. -/
theorem unpack_pack [Compilation] (packets : TsPackets) (nonempty : packets.list ≠ [])
    (encodable : ∀ p ∈ packets.list, p.Encodable) :
    ∃ left s decoded t,
      packets.pack (Bytestream.constructBuffer []) = ((packets.list.length : Int), left, s) ∧
      left.list = packed packets.counters packets.list ∧
      s.store = (left.list.map bytes).flatten ∧ (∀ p ∈ left.list, p.bytes.length = 188) ∧
      s.store.length = 188 * packets.list.length ∧
      construct.unpack (Bytestream.constructBuffer s.store) = some ((packets.list.length : Int), decoded, t) ∧
      List.Forall₂ SameFields decoded.list left.list := by
  have settled := settled_packed encodable packets.counters
  have filled : packed packets.counters packets.list ≠ [] := by
    rw [← List.length_pos_iff, length_packed]
    exact List.length_pos_iff.mpr nonempty
  have widths := widths_settled settled
  obtain ⟨t, read⟩ := unpack_settled filled settled
  rw [length_packed] at read
  refine ⟨_, _, { list := (packed packets.counters packets.list).map fun p => wirePacket p.bytes }, t,
    pack_eq packets rfl, rfl, store_foldl_write rfl _, ?_, ?_, ?_, ?_⟩
  · intro p member
    exact (settled p member).length_bytes
  · rw [store_foldl_write rfl]
    exact (length_flatten widths).trans (by rw [List.length_map, length_packed])
  · rw [store_foldl_write rfl]
    exact read
  · rw [List.forall₂_map_left_iff]
    apply List.forall₂_same.mpr
    intro p member
    have same := (settled p member).wirePacket []
    rw [List.append_nil] at same
    exact same

section AtRunTime
attribute [local instance] Compilation.atRunTime

/-- A packet with a payload of one byte and one with a random access indicator alone. -/
def twoKinds : TsPackets :=
  { list := [{ pid := 256, adaptationFieldControl := 1, payloadData := [7] },
      { pid := 256, adaptationFieldControl := 2, adaptationField := { randomAccessIndicator := true } }] }

theorem unpack_pack_two :
    ∃ left s decoded t,
      twoKinds.pack (Bytestream.constructBuffer []) = ((2 : Int), left, s) ∧
      left.list = packed [] twoKinds.list ∧
      s.store = (left.list.map bytes).flatten ∧ (∀ p ∈ left.list, p.bytes.length = 188) ∧
      s.store.length = 188 * 2 ∧
      construct.unpack (Bytestream.constructBuffer s.store) = some ((2 : Int), decoded, t) ∧
      List.Forall₂ SameFields decoded.list left.list := by
  apply unpack_pack twoKinds
  · decide
  · intro p member
    rcases List.mem_pair.mp member with rfl | rfl
    · exact ⟨⟨rfl, rfl, rfl, rfl, fun _ => rfl⟩, by decide⟩
    · exact ⟨⟨rfl, rfl, rfl, rfl, fun _ => rfl⟩, by decide⟩

end AtRunTime

end TsPackets
end Libts
