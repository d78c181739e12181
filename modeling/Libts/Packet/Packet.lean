import Libts.Packet.AdaptationField

/-!
# The transport packet

`ts_packet.c`: a header word, an optional adaptation field and the payload. The encoder
settles the adaptation field control from the sizes (`normalised`) and writes one byte
string (`pack_eq`). The decoder's three ways to end on a stream with at least 188 bytes
are `unpack_rejects`, `unpack_aborts` and `unpack_accepts`.
-/

namespace Libts
set_option autoImplicit false

open CArith

/-- `payload_data` and `payload_size` are one byte string. -/
structure TsPacket where
  transportErrorIndicator : Bool := false
  payloadUnitStartIndicator : Bool := false
  transportPriority : Bool := false
  pid : BitVec 13 := 0
  transportScramblingControl : BitVec 2 := 0
  adaptationFieldControl : BitVec 2 := 0
  continuityCounter : BitVec 4 := 0
  adaptationField : TsAdaptationField := {}
  payloadData : List UInt8 := []
deriving Repr, DecidableEq

namespace TsPacket

def construct : TsPacket := {}

def payloadSize (p : TsPacket) : Nat := p.payloadData.length

/-- `adaptation_field_control & 0x02`. -/
def hasAdaptationField (p : TsPacket) : Bool := p.adaptationFieldControl &&& 2#2 != 0#2

/-- `adaptation_field_control & 0x01`. -/
def hasPayload (p : TsPacket) : Bool := p.adaptationFieldControl &&& 1#2 != 0#2

def size (p : TsPacket) : Nat :=
  4 + (if p.hasAdaptationField then p.adaptationField.size else 0) + p.payloadSize

/-- The header word. -/
def header (p : TsPacket) : Nat :=
  writeBits 0x47 32 0 8 |||
  writeBits p.transportErrorIndicator.toNat 32 8 1 |||
  writeBits p.payloadUnitStartIndicator.toNat 32 9 1 |||
  writeBits p.transportPriority.toNat 32 10 1 |||
  writeBits p.pid.toNat 32 11 13 |||
  writeBits p.transportScramblingControl.toNat 32 24 2 |||
  writeBits p.adaptationFieldControl.toNat 32 26 2 |||
  writeBits p.continuityCounter.toNat 32 28 4

/-- What `pack` does to the packet before it writes it. -/
def normalised (p : TsPacket) : TsPacket :=
  let p := if p.payloadSize ≠ 0
    then { p with adaptationFieldControl := p.adaptationFieldControl ||| 1#2 }
    else { p with adaptationFieldControl := p.adaptationFieldControl &&& ~~~1#2 }
  if p.size < 188 then { p with adaptationFieldControl := p.adaptationFieldControl ||| 2#2 } else p

def pack (p : TsPacket) (s : Bytestream) : Int × TsPacket × Bytestream :=
  let p := p.normalised
  let s := s.write32 p.header
  let (n, s) := if p.hasAdaptationField
    then p.adaptationField.pack s (sizeSub (188 - 4) p.payloadSize)
    else (1, s)
  if n = -1 then (-1, p, s)
  else
    let s := if p.hasPayload then s.write p.payloadData else s
    (s.result, p, s)

/-- The assignments of `unpack` from the header word. -/
def setHeader (p : TsPacket) (v : Nat) : TsPacket :=
  { p with
    transportErrorIndicator := flag (readBits v 32 8 1)
    payloadUnitStartIndicator := flag (readBits v 32 9 1)
    transportPriority := flag (readBits v 32 10 1)
    pid := BitVec.ofNat 13 (readBits v 32 11 13)
    transportScramblingControl := BitVec.ofNat 2 (readBits v 32 24 2)
    adaptationFieldControl := BitVec.ofNat 2 (readBits v 32 26 2)
    continuityCounter := BitVec.ofNat 4 (readBits v 32 28 4) }

/-- The payload of `unpack`, on a stream that had `size` bytes in front of the packet.
`none` is the `abort` on a failed `malloc`. -/
def unpackPayload (p : TsPacket) (size : Nat) (s : Bytestream) : Option (Int × TsPacket × Bytestream) :=
  if p.hasPayload then
    let payloadSize := sizeSub 188 (sizeSub size s.size)
    if payloadSize > ptrdiffMax then none
    else
      let (payloadData, s) := s.read payloadSize
      some (s.result, { p with payloadData := payloadData }, s)
  else some (s.result, p, s)

/-- `unpack` after the header word. -/
def unpackBody [Compilation] (p : TsPacket) (size : Nat) (s : Bytestream) : Option (Int × TsPacket × Bytestream) :=
  if p.hasAdaptationField then
    let (n, adaptationField, s) := p.adaptationField.unpack s
    let p := { p with adaptationField := adaptationField }
    if n ≤ 0 then some (n, p, s) else p.unpackPayload size s
  else p.unpackPayload size s

def unpack [Compilation] (p : TsPacket) (s : Bytestream) : Option (Int × TsPacket × Bytestream) :=
  let size := s.size
  if size < 188 then some (0, p, s)
  else
    let (v, s) := s.read32
    (p.setHeader v).unpackBody size s

/-! ## What the encoder writes -/

/-- The bytes of a packet whose adaptation field control is settled. -/
def bytes (p : TsPacket) : List UInt8 :=
  BigEndian.bytes 4 p.header ++
    (if p.hasAdaptationField then p.adaptationField.bytes (sizeSub (188 - 4) p.payloadSize) else []) ++
    (if p.hasPayload then p.payloadData else [])

/-- The whole effect of the encoder. -/
theorem pack_eq (p : TsPacket) {s : Bytestream} (h : s.attached = true) :
    p.pack s = (1, p.normalised, s.write p.normalised.bytes) := by
  have field : (if p.normalised.hasAdaptationField then
        p.normalised.adaptationField.pack (s.write (BigEndian.bytes 4 p.normalised.header))
          (sizeSub (188 - 4) p.normalised.payloadSize)
      else (1, s.write (BigEndian.bytes 4 p.normalised.header))) =
      (1, s.write (BigEndian.bytes 4 p.normalised.header ++
        if p.normalised.hasAdaptationField then
          p.normalised.adaptationField.bytes (sizeSub (188 - 4) p.normalised.payloadSize) else [])) := by
    by_cases has : p.normalised.hasAdaptationField = true
    · rw [if_pos has, if_pos has, TsAdaptationField.pack_eq _ h]
    · rw [if_neg has, if_neg has, List.append_nil]
  have failed : ¬ (1 : Int) = -1 := by decide
  have valid : (s.write p.normalised.bytes).result = 1 := by
    apply Bytestream.result_write h
    simp [bytes, BigEndian.bytes]
  simp only [pack, Bytestream.write32, field, if_neg failed, Bytestream.write_if h]
  exact Prod.ext valid rfl

theorem header_eq_word (p : TsPacket) : p.header = BitField.word
    [(0x47, 8), (p.transportErrorIndicator.toNat, 1), (p.payloadUnitStartIndicator.toNat, 1),
     (p.transportPriority.toNat, 1), (p.pid.toNat, 13), (p.transportScramblingControl.toNat, 2),
     (p.adaptationFieldControl.toNat, 2), (p.continuityCounter.toNat, 4)] := by
  unfold header
  simp (disch := simp [BitField.width]) only [Nat.or_assoc, writeBits_last, writeBits_or_word]

theorem header_lt (p : TsPacket) : p.header < 2 ^ 32 := by
  rw [header_eq_word]
  exact BitField.word_lt _

/-- The header word reads back as the header fields. -/
theorem setHeader_header (p old : TsPacket) :
    old.setHeader p.header =
      { old with
        transportErrorIndicator := p.transportErrorIndicator
        payloadUnitStartIndicator := p.payloadUnitStartIndicator
        transportPriority := p.transportPriority
        pid := p.pid
        transportScramblingControl := p.transportScramblingControl
        adaptationFieldControl := p.adaptationFieldControl
        continuityCounter := p.continuityCounter } := by
  have bit : ∀ (fs : List (Nat × Nat)) (b : Bool) (gs : List (Nat × Nat)) (offset : Nat),
      32 - offset - 1 = BitField.width gs →
      flag (readBits (BitField.word (fs ++ (b.toNat, 1) :: gs)) 32 offset 1) = b := by
    intro fs b gs offset place
    rw [readBits_word fs b.toNat gs (by decide) place, flag_toNat_mod]
  have field : ∀ (fs : List (Nat × Nat)) (w : Nat) (b : BitVec w) (gs : List (Nat × Nat)) (offset : Nat),
      w < 31 → 32 - offset - w = BitField.width gs →
      BitVec.ofNat w (readBits (BitField.word (fs ++ (b.toNat, w) :: gs)) 32 offset w) = b := by
    intro fs w b gs offset narrow place
    rw [readBits_word fs b.toNat gs narrow place, Nat.mod_eq_of_lt b.isLt, BitVec.ofNat_toNat, BitVec.setWidth_eq]
  rw [header_eq_word]
  unfold setHeader
  congr 1
  · exact bit [_] _ _ 8 rfl
  · exact bit [_, _] _ _ 9 rfl
  · exact bit [_, _, _] _ _ 10 rfl
  · exact field [_, _, _, _] 13 _ _ 11 (by decide) rfl
  · exact field [_, _, _, _, _] 2 _ _ 24 (by decide) rfl
  · exact field [_, _, _, _, _, _] 2 _ _ 26 (by decide) rfl
  · exact field [_, _, _, _, _, _, _] 4 _ [] 28 (by decide) rfl

/-! ## What the decoder accepts -/

section Wire

-- the bytes from the first of the packet on
variable [Compilation] (l : List UInt8)

/-- The packet with its header read. -/
def wireHeader : TsPacket := construct.setHeader (BigEndian.value (l.take 4))

/-- The length byte of the adaptation field. -/
def fieldLength : UInt8 := l.getD 4 0

/-- The adaptation field is accepted: its announced fields fit in its length and the stream
holds that length. -/
def FieldAccepted : Prop :=
  fieldLength l = 0 ∨
    TsAdaptationField.wireSize (l.drop 5) ≤ (fieldLength l).toNat ∧ (fieldLength l).toNat + 5 ≤ l.length

instance : Decidable (FieldAccepted l) := inferInstanceAs (Decidable (_ ∨ _))

/-- The adaptation field the decoder makes of `l`. -/
def wireAdaptationField : TsAdaptationField :=
  if fieldLength l = 0 then {} else TsAdaptationField.wireField (l.drop 5)

/-- Where the payload starts. -/
def payloadOffset : Nat := if (wireHeader l).hasAdaptationField then 5 + (fieldLength l).toNat else 4

/-- The packet the decoder makes of `l`. -/
def wirePacket : TsPacket :=
  { wireHeader l with
    adaptationField := if (wireHeader l).hasAdaptationField then wireAdaptationField l else {}
    payloadData :=
      if (wireHeader l).hasPayload then (l.drop (payloadOffset l)).take (188 - payloadOffset l) else [] }

end Wire

/-- The packet at the front of `l` is accepted and ends after exactly 188 bytes. -/
structure Framed (l : List UInt8) : Prop where
  long : 188 ≤ l.length
  field : (wireHeader l).hasAdaptationField = true → FieldAccepted l
  ends : if (wireHeader l).hasPayload then payloadOffset l ≤ 188 else payloadOffset l = 188

theorem Framed.offset_le {l : List UInt8} (f : Framed l) : payloadOffset l ≤ 188 := by
  have ends := f.ends
  split at ends <;> omega

theorem payloadOffset_le (l : List UInt8) : payloadOffset l ≤ 260 := by
  have byte := (fieldLength l).toNat_lt
  unfold payloadOffset
  split <;> omega

/-- An accepted adaptation field ends inside the stream. -/
theorem payloadOffset_there {l : List UInt8} (long : 188 ≤ l.length)
    (field : (wireHeader l).hasAdaptationField = true → FieldAccepted l) : payloadOffset l ≤ l.length := by
  unfold payloadOffset
  by_cases has : (wireHeader l).hasAdaptationField = true
  · rw [if_pos has]
    rcases field has with zero | ⟨_, there⟩
    · rw [zero]
      have : (0 : UInt8).toNat = 0 := rfl
      omega
    · omega
  · rw [if_neg has]
    omega

section Unpack

variable {s : Bytestream} {l : List UInt8}

/-- Fewer than 188 bytes are left alone. -/
theorem unpack_short [Compilation] (h : s.Holds l) (few : l.length < 188) (p : TsPacket) :
    p.unpack s = some (0, p, s) := by
  simp only [unpack, h.sizeEq, if_pos few]

/-- The stream in front of the adaptation field. -/
theorem holds_field (h : s.Holds l) (enough : 188 ≤ l.length) :
    (s.skip 4).Holds (fieldLength l :: l.drop 5) := by
  have tail : l.drop 4 = fieldLength l :: l.drop 5 := by
    rw [List.drop_eq_getElem_cons (by omega : 4 < l.length), fieldLength]
    simp [List.getD_eq_getElem?_getD, (by omega : 4 < l.length)]
  rw [← tail]
  exact h.skip (by omega)

/-- The decoder of the adaptation field on an accepted one. -/
theorem unpack_field [Compilation] (h : s.Holds l) (enough : 188 ≤ l.length) (ok : FieldAccepted l) :
    TsAdaptationField.construct.unpack (s.skip 4) =
      (1, wireAdaptationField l, s.skip (5 + (fieldLength l).toNat)) := by
  have rest := holds_field h enough
  unfold wireAdaptationField
  obtain zero | positive := eq_or_ne (fieldLength l) 0
  · rw [zero] at rest
    rw [if_pos zero, zero, TsAdaptationField.unpack_empty rest, Bytestream.skip_skip]
    rfl
  · obtain ⟨fits, there⟩ := ok.resolve_left positive
    have room : (fieldLength l).toNat ≤ (l.drop 5).length := by
      rw [List.length_drop]
      omega
    rw [if_neg positive, TsAdaptationField.unpack_accepts rest positive fits room, Bytestream.skip_skip,
      ← Nat.add_assoc]

/-- The decoder of the adaptation field on any other. -/
theorem unpack_field_rejects [Compilation] (h : s.Holds l) (enough : 188 ≤ l.length) (bound : l.length < 2 ^ 63)
    (bad : ¬ FieldAccepted l) : (TsAdaptationField.construct.unpack (s.skip 4)).1 = -1 := by
  obtain ⟨nonzero, overrun⟩ := not_or.mp bad
  apply TsAdaptationField.unpack_rejects (holds_field h enough) nonzero
  · rw [List.length_drop]
    omega
  · rw [List.length_drop]
    by_cases fits : TsAdaptationField.wireSize (l.drop 5) ≤ (fieldLength l).toNat
    · right
      have := fun there => overrun ⟨fits, there⟩
      omega
    · left
      omega

theorem unpack_header [Compilation] (h : s.Holds l) (enough : 188 ≤ l.length) :
    construct.unpack s = (wireHeader l).unpackBody l.length (s.skip 4) := by
  have word : s.peek 4 = l.take 4 := h.peek (by omega)
  have long : ¬ l.length < 188 := by omega
  simp only [unpack, h.sizeEq, if_neg long, Bytestream.read32, word]
  rfl

/-- A packet whose adaptation field is refused. -/
theorem unpack_rejects [Compilation] (h : s.Holds l) (enough : 188 ≤ l.length) (bound : l.length < 2 ^ 63)
    (field : (wireHeader l).hasAdaptationField = true) (bad : ¬ FieldAccepted l) :
    ∃ p t, construct.unpack s = some (-1, p, t) := by
  have refused := unpack_field_rejects h enough bound bad
  rw [unpack_header h enough, unpackBody, if_pos field]
  rw [show (wireHeader l).adaptationField = TsAdaptationField.construct from rfl]
  simp only [refused]
  exact ⟨_, _, rfl⟩

/-- `unpack` in front of the payload. -/
theorem unpack_payload [Compilation] (h : s.Holds l) (enough : 188 ≤ l.length)
    (ok : (wireHeader l).hasAdaptationField = true → FieldAccepted l) :
    construct.unpack s =
      { wireHeader l with
        adaptationField := if (wireHeader l).hasAdaptationField then wireAdaptationField l else {} }.unpackPayload
        l.length (s.skip (payloadOffset l)) := by
  have positive : ¬ (1 : Int) ≤ 0 := by decide
  rw [unpack_header h enough, unpackBody, payloadOffset]
  rw [show (wireHeader l).adaptationField = TsAdaptationField.construct from rfl]
  by_cases field : (wireHeader l).hasAdaptationField = true
  · simp only [if_pos field, unpack_field h enough (ok field), if_neg positive]
  · rw [if_neg field, if_neg field, if_neg field]
    rfl

/-- A payload that starts behind the 188 bytes has a negative size, hence one that no
allocation serves. -/
theorem unpack_aborts [Compilation] (h : s.Holds l) (enough : 188 ≤ l.length)
    (ok : (wireHeader l).hasAdaptationField = true → FieldAccepted l)
    (payload : (wireHeader l).hasPayload = true) (there : payloadOffset l ≤ l.length)
    (behind : 188 < payloadOffset l) : construct.unpack s = none := by
  have near := payloadOffset_le l
  have huge : sizeSub 188 (payloadOffset l) > ptrdiffMax := by
    rw [sizeSub_of_lt behind (by omega)]
    unfold ptrdiffMax
    omega
  rw [unpack_payload h enough ok, unpackPayload, if_pos (by exact payload)]
  simp only [h.consumed there (by omega), if_pos huge]

/-- A packet that is accepted, and where it leaves the stream. -/
theorem unpack_accepts [Compilation] (h : s.Holds l) (enough : 188 ≤ l.length)
    (ok : (wireHeader l).hasAdaptationField = true → FieldAccepted l) (there : payloadOffset l ≤ l.length)
    (inside : (wireHeader l).hasPayload = true → payloadOffset l ≤ 188) :
    construct.unpack s =
      some (1, wirePacket l, s.skip (if (wireHeader l).hasPayload then 188 else payloadOffset l)) := by
  have near := payloadOffset_le l
  have rest := h.skip there
  rw [unpack_payload h enough ok, unpackPayload, wirePacket]
  by_cases payload : (wireHeader l).hasPayload = true
  · have offset := inside payload
    have size : sizeSub 188 (payloadOffset l) = 188 - payloadOffset l := sizeSub_of_le offset (by omega)
    have small : ¬ 188 - payloadOffset l > ptrdiffMax := by
      unfold ptrdiffMax
      omega
    have room : 188 - payloadOffset l ≤ (l.drop (payloadOffset l)).length := by
      rw [List.length_drop]
      omega
    have whole : payloadOffset l + (188 - payloadOffset l) = 188 := by omega
    rw [if_pos (by exact payload), if_pos payload, if_pos payload]
    simp only [h.consumed there (by omega), size, if_neg small, Bytestream.read, rest.peek room,
      Bytestream.skip_skip, whole, (h.skip enough).result]
  · rw [if_neg (by exact payload), if_neg payload, if_neg payload, rest.result]
    rfl

/-- A framed packet is read and leaves the stream behind its 188 bytes. -/
theorem Framed.unpack [Compilation] (f : Framed l) (h : s.Holds l) :
    construct.unpack s = some (1, wirePacket l, s.skip 188) := by
  have ends := f.ends
  have offset := f.offset_le
  have long := f.long
  rw [unpack_accepts h long f.field (by omega) (fun _ => offset)]
  by_cases payload : (wireHeader l).hasPayload = true
  · rw [if_pos payload]
  · rw [if_neg payload] at ends
    rw [if_neg payload, ends]

theorem payloadSize_wirePacket_le [Compilation] (l : List UInt8) : (wirePacket l).payloadSize ≤ 184 := by
  have start : 4 ≤ payloadOffset l := by
    unfold payloadOffset
    split <;> omega
  simp only [wirePacket, payloadSize]
  split
  · simp only [List.length_take]
    omega
  · simp

end Unpack

/-! ## Only the 188 bytes matter -/

section Locality

variable {l : List UInt8}

theorem wireHeader_take : wireHeader (l.take 188) = wireHeader l := by
  unfold wireHeader
  rw [List.take_take]
  rfl

theorem fieldLength_take : fieldLength (l.take 188) = fieldLength l :=
  TsAdaptationField.getD_take (by decide)

theorem payloadOffset_take : payloadOffset (l.take 188) = payloadOffset l := by
  unfold payloadOffset
  rw [wireHeader_take, fieldLength_take]

/-- The adaptation field of a framed packet lies inside it. -/
theorem Framed.wireSize_le (f : Framed l) (field : (wireHeader l).hasAdaptationField = true)
    (nonzero : fieldLength l ≠ 0) : TsAdaptationField.wireSize (l.drop 5) ≤ 183 := by
  have offset := f.offset_le
  unfold payloadOffset at offset
  rw [if_pos field] at offset
  have fits := ((f.field field).resolve_left nonzero).1
  omega

/-- A framed packet is framed in its own 188 bytes. -/
theorem Framed.take (f : Framed l) : Framed (l.take 188) := by
  have long := f.long
  refine ⟨by rw [List.length_take]; omega, ?_, ?_⟩
  · intro field
    rw [wireHeader_take] at field
    rcases f.field field with zero | ⟨fits, there⟩
    · left
      rw [fieldLength_take, zero]
    · obtain zero | positive := eq_or_ne (fieldLength l) 0
      · left
        rw [fieldLength_take, zero]
      · right
        have inside := f.wireSize_le field positive
        have offset := f.offset_le
        unfold payloadOffset at offset
        rw [if_pos field] at offset
        rw [fieldLength_take, List.drop_take, TsAdaptationField.wireSize_take (by omega), List.length_take]
        omega
  · rw [wireHeader_take, payloadOffset_take]
    exact f.ends

/-- A framed packet is a function of its own 188 bytes. -/
theorem Framed.wirePacket_take [Compilation] (f : Framed l) : wirePacket (l.take 188) = wirePacket l := by
  have offset := f.offset_le
  have field : (if (wireHeader l).hasAdaptationField then wireAdaptationField (l.take 188) else {}) =
      if (wireHeader l).hasAdaptationField then wireAdaptationField l else {} := by
    by_cases has : (wireHeader l).hasAdaptationField = true
    · rw [if_pos has, if_pos has]
      unfold wireAdaptationField
      rw [fieldLength_take]
      obtain zero | positive := eq_or_ne (fieldLength l) 0
      · rw [if_pos zero, if_pos zero]
      · rw [if_neg positive, if_neg positive, List.drop_take, TsAdaptationField.wireField_take (f.wireSize_le has positive)]
    · rw [if_neg has, if_neg has]
  unfold wirePacket
  rw [wireHeader_take, payloadOffset_take, field, List.drop_take, List.take_take, Nat.min_self]

end Locality

/-! ## The decoder only moves forward -/

theorem unpackPayload_later {p q : TsPacket} {size : Nat} {s t u : Bytestream} {k : Nat} {n : Int}
    (far : s.Later k t) (h : p.unpackPayload size t = some (n, q, u)) : s.Later k u := by
  unfold unpackPayload at h
  split at h
  · simp only [Bytestream.read] at h
    split at h
    · cases h
    · cases h
      exact far.skip _
  · cases h
    exact far

theorem unpackBody_later [Compilation] {p q : TsPacket} {size : Nat} {s u : Bytestream} {k : Nat} {n : Int}
    (h : p.unpackBody size (s.skip k) = some (n, q, u)) : s.Later k u := by
  simp only [unpackBody] at h
  by_cases field : p.hasAdaptationField = true
  · obtain ⟨m, far, stream⟩ := p.adaptationField.unpack_later (s.skip k)
    rw [Bytestream.skip_skip] at stream
    have later : s.Later k (p.adaptationField.unpack (s.skip k)).2.2 := ⟨k + m, by omega, stream⟩
    rw [if_pos field] at h
    split at h
    · cases h
      exact later
    · exact unpackPayload_later later h
  · rw [if_neg field] at h
    exact unpackPayload_later (s.later_skip k) h

/-- A packet that was read took at least its header. -/
theorem unpack_later [Compilation] {p q : TsPacket} {s t : Bytestream} {n : Int} (h : p.unpack s = some (n, q, t))
    (positive : 0 < n) : s.Later 4 t := by
  simp only [unpack] at h
  split at h
  · cases h
    omega
  · exact unpackBody_later h

theorem unpack_size_lt [Compilation] {p q : TsPacket} {s t : Bytestream} {n : Int} (h : p.unpack s = some (n, q, t))
    (positive : 0 < n) (nonempty : s.size ≠ 0) : t.size < s.size :=
  (unpack_later h positive).size_lt (by decide) nonempty

end TsPacket
end Libts
