import Libts.Packet.Pcr
import Libts.Packet.Ebp

/-!
# The adaptation field

`ts_adaptation_field.c`: a length byte, a flags byte and the optional fields the flags
announce. The encoder's effect is one byte string (`pack_eq`). The decoder accepts a
field exactly when its optional fields fit in the announced length and the announced
length is there (`unpack_accepts`, `unpack_rejects`), and then it has consumed the length
byte and the announced length, whatever the fields were.
-/

namespace Libts
set_option autoImplicit false

open CArith

structure TsAdaptationField where
  discontinuityIndicator : Bool := false
  randomAccessIndicator : Bool := false
  elementaryStreamPriorityIndicator : Bool := false
  pcrFlag : Bool := false
  opcrFlag : Bool := false
  splicingPointFlag : Bool := false
  transportPrivateDataFlag : Bool := false
  adaptationFieldExtensionFlag : Bool := false
  pcr : BitVec 64 := 0
  opcr : BitVec 64 := 0
  spliceCountdown : UInt8 := 0
  ebp : TsEbp := {}
  privateData : Block := default
deriving Repr, DecidableEq

namespace TsAdaptationField

def construct : TsAdaptationField := {}

def size (af : TsAdaptationField) : Nat :=
  2 + (if af.pcrFlag then 6 else 0) + (if af.opcrFlag then 6 else 0) + (if af.splicingPointFlag then 1 else 0) +
    (if af.transportPrivateDataFlag then af.privateData.size + 1 else 0) +
    (if af.ebp.marker then 15 else 0)

/-- The flags byte. -/
def flags (af : TsAdaptationField) : Nat :=
  writeBits af.discontinuityIndicator.toNat 8 0 1 |||
  writeBits af.randomAccessIndicator.toNat 8 1 1 |||
  writeBits af.elementaryStreamPriorityIndicator.toNat 8 2 1 |||
  writeBits af.pcrFlag.toNat 8 3 1 |||
  writeBits af.opcrFlag.toNat 8 4 1 |||
  writeBits af.splicingPointFlag.toNat 8 5 1 |||
  writeBits af.transportPrivateDataFlag.toNat 8 6 1 |||
  writeBits af.adaptationFieldExtensionFlag.toNat 8 7 1

/-- The loop that writes `0xff` until `size` is zero. -/
def stuff : Nat → Bytestream → Bytestream
  | 0, s => s
  | n + 1, s => stuff n (s.write8 0xff)

/-- The private data, written from the marker when there is one. -/
def packPrivate (af : TsAdaptationField) (s : Bytestream) : Bytestream :=
  if af.ebp.marker then
    let s := s.write8 15
    let s := s.write8 0xdf
    let s := s.write8 13
    let s := s.write TsEbp.identifier
    let s := s.write8 0x08
    s.write64 af.ebp.time.toNat
  else if af.privateData.size ≠ 0 then
    let s := s.write8 af.privateData.size
    s.write af.privateData.data
  else s

def pack (af : TsAdaptationField) (s : Bytestream) (size : Nat) : Int × Bytestream :=
  let s := s.write8 (sizeSub size 1)
  if size = 1 then (s.result, s)
  else
    let s := s.write8 af.flags
    let s := if af.pcrFlag then (TsPcr.pack af.pcr s).2 else s
    let s := if af.opcrFlag then (TsPcr.pack af.opcr s).2 else s
    let s := if af.splicingPointFlag then s.write8 af.spliceCountdown.toNat else s
    let s := af.packPrivate s
    let s := stuff (sizeSub size af.size) s
    (s.result, s)

/-- The assignments of `unpack` from the flags byte. -/
def setFlags (af : TsAdaptationField) (flags : Nat) : TsAdaptationField :=
  { af with
    discontinuityIndicator := flag (readBits flags 8 0 1)
    randomAccessIndicator := flag (readBits flags 8 1 1)
    elementaryStreamPriorityIndicator := flag (readBits flags 8 2 1)
    pcrFlag := flag (readBits flags 8 3 1)
    opcrFlag := flag (readBits flags 8 4 1)
    splicingPointFlag := flag (readBits flags 8 5 1)
    transportPrivateDataFlag := flag (readBits flags 8 6 1)
    adaptationFieldExtensionFlag := flag (readBits flags 8 7 1) }

/-- The end of `unpack`: extensions are not supported yet, and what is left of the
announced length is skipped. -/
def unpackRest (af : TsAdaptationField) (len size : Nat) (s : Bytestream) :
    Int × TsAdaptationField × Bytestream :=
  let af := { af with adaptationFieldExtensionFlag := false }
  let s := s.skip (sizeSub len (sizeSub size s.size))
  (s.result, af, s)

/-- The private data of `unpack`. On the early return the source has the size without the
data; no caller reads either then. -/
def unpackPrivate (af : TsAdaptationField) (len size : Nat) (s : Bytestream) :
    Int × TsAdaptationField × Bytestream :=
  if af.transportPrivateDataFlag then
    let (privateSize, s) := s.read8
    if privateSize > s.size then (-1, af, s)
    else
      let (privateData, s) := s.readBlock (UInt8.ofNat privateSize)
      let (_, ebp, _) := af.ebp.unpack (Bytestream.construct (some privateData.data) privateData.size)
      unpackRest { af with privateData := privateData, ebp := ebp } len size s
  else unpackRest af len size s

/-- The clocks and the splice countdown of `unpack`. -/
def unpackClocks [Compilation] (af : TsAdaptationField) (s : Bytestream) : TsAdaptationField × Bytestream :=
  let (pcr, s) := if af.pcrFlag then (TsPcr.unpack s).2 else (af.pcr, s)
  let (opcr, s) := if af.opcrFlag then (TsPcr.unpack s).2 else (af.opcr, s)
  let (spliceCountdown, s) :=
    if af.splicingPointFlag then (UInt8.ofNat s.read8.1, s.read8.2) else (af.spliceCountdown, s)
  ({ af with pcr := pcr, opcr := opcr, spliceCountdown := spliceCountdown }, s)

def unpack [Compilation] (af : TsAdaptationField) (s : Bytestream) : Int × TsAdaptationField × Bytestream :=
  let (len, s) := s.read8
  if len ≠ 0 then
    let size := s.size
    let (flags, s) := s.read8
    let (af, s) := (af.setFlags flags).unpackClocks s
    unpackPrivate af len size s
  else (s.result, af, s)

/-! ## What the encoder writes -/

/-- The private data as `pack` writes it. -/
def privateBytes (af : TsAdaptationField) : List UInt8 :=
  if af.ebp.marker then
    BigEndian.bytes 1 15 ++ BigEndian.bytes 1 0xdf ++ BigEndian.bytes 1 13 ++ TsEbp.identifier ++
      BigEndian.bytes 1 0x08 ++ BigEndian.bytes 8 af.ebp.time.toNat
  else if af.privateData.size ≠ 0 then BigEndian.bytes 1 af.privateData.size ++ af.privateData.data
  else []

/-- The optional fields as `pack` writes them. -/
def fieldBytes (af : TsAdaptationField) : List UInt8 :=
  (if af.pcrFlag then TsPcr.bytes af.pcr else []) ++ (if af.opcrFlag then TsPcr.bytes af.opcr else []) ++
    (if af.splicingPointFlag then BigEndian.bytes 1 af.spliceCountdown.toNat else []) ++ af.privateBytes

/-- The bytes `pack` writes into `size` bytes of room. -/
def bytes (af : TsAdaptationField) (size : Nat) : List UInt8 :=
  BigEndian.bytes 1 (sizeSub size 1) ++
    if size = 1 then []
    else BigEndian.bytes 1 af.flags ++ af.fieldBytes ++ List.replicate (sizeSub size af.size) 0xff

theorem stuff_write {s : Bytestream} (h : s.attached = true) (n : Nat) (as : List UInt8) :
    stuff n (s.write as) = s.write (as ++ List.replicate n 0xff) := by
  induction n generalizing as with
  | zero => simp [stuff]
  | succ n ih =>
    have byte : BigEndian.bytes 1 0xff = [0xff] := rfl
    rw [stuff, Bytestream.write8, Bytestream.write_write h, ih, byte, List.append_assoc]
    rfl

theorem packPrivate_write (af : TsAdaptationField) {s : Bytestream} (h : s.attached = true)
    (as : List UInt8) : af.packPrivate (s.write as) = s.write (as ++ af.privateBytes) := by
  simp only [packPrivate, privateBytes, Bytestream.write8, Bytestream.write64]
  by_cases marker : af.ebp.marker = true
  · simp only [marker, if_true, Bytestream.write_write h, List.append_assoc]
  · rw [if_neg marker, if_neg marker]
    by_cases data : af.privateData.size ≠ 0
    · rw [if_pos data, if_pos data, Bytestream.write_write h, Bytestream.write_write h, List.append_assoc]
    · rw [if_neg data, if_neg data, List.append_nil]

/-- The whole effect of the encoder. -/
theorem pack_eq (af : TsAdaptationField) {s : Bytestream} (h : s.attached = true) (size : Nat)
    (as : List UInt8) : af.pack (s.write as) size = (1, s.write (as ++ af.bytes size)) := by
  have pcr : ∀ (c : Prop) [Decidable c] (v : BitVec 64) (bs : List UInt8),
      (if c then (TsPcr.pack v (s.write bs)).2 else s.write bs) =
        s.write (bs ++ if c then TsPcr.bytes v else []) := by
    intro c _ v bs
    rw [TsPcr.pack_stream (Bytestream.attached_write h bs), Bytestream.write_if h]
  have valid : ∀ v bs, (s.write (as ++ (BigEndian.bytes 1 v ++ bs))).result = 1 := by
    intro v bs
    apply Bytestream.result_write h
    simp [BigEndian.bytes]
  simp only [pack, bytes, Bytestream.write8, Bytestream.write_write h]
  obtain one | several := eq_or_ne size 1
  · have alone := valid (sizeSub size 1) []
    rw [List.append_nil] at alone
    rw [if_pos one, if_pos one, alone, List.append_nil]
  · rw [if_neg several, if_neg several, pcr, pcr, Bytestream.write_if h, packPrivate_write af h, stuff_write h]
    simp only [List.append_assoc, fieldBytes, valid]

theorem flags_eq_word (af : TsAdaptationField) : af.flags = BitField.word
    [(af.discontinuityIndicator.toNat, 1), (af.randomAccessIndicator.toNat, 1),
     (af.elementaryStreamPriorityIndicator.toNat, 1), (af.pcrFlag.toNat, 1), (af.opcrFlag.toNat, 1),
     (af.splicingPointFlag.toNat, 1), (af.transportPrivateDataFlag.toNat, 1),
     (af.adaptationFieldExtensionFlag.toNat, 1)] := by
  unfold flags
  simp (disch := simp [BitField.width]) only [Nat.or_assoc, writeBits_last, writeBits_or_word]

theorem flags_lt (af : TsAdaptationField) : af.flags < 2 ^ 8 := by
  rw [flags_eq_word]
  exact BitField.word_lt _

/-- The flags byte reads back as the flags. -/
theorem setFlags_flags (af : TsAdaptationField) (old : TsAdaptationField) :
    old.setFlags af.flags =
      { old with
        discontinuityIndicator := af.discontinuityIndicator
        randomAccessIndicator := af.randomAccessIndicator
        elementaryStreamPriorityIndicator := af.elementaryStreamPriorityIndicator
        pcrFlag := af.pcrFlag
        opcrFlag := af.opcrFlag
        splicingPointFlag := af.splicingPointFlag
        transportPrivateDataFlag := af.transportPrivateDataFlag
        adaptationFieldExtensionFlag := af.adaptationFieldExtensionFlag } := by
  have field : ∀ (fs : List (Nat × Nat)) (b : Bool) (gs : List (Nat × Nat)) (offset : Nat),
      8 - offset - 1 = BitField.width gs →
      flag (readBits (BitField.word (fs ++ (b.toNat, 1) :: gs)) 8 offset 1) = b := by
    intro fs b gs offset place
    rw [readBits_word fs b.toNat gs (by decide) place, flag_toNat_mod]
  rw [flags_eq_word]
  unfold setFlags
  congr 1
  · exact field [] _ _ 0 rfl
  · exact field [_] _ _ 1 rfl
  · exact field [_, _] _ _ 2 rfl
  · exact field [_, _, _] _ _ 3 rfl
  · exact field [_, _, _, _] _ _ 4 rfl
  · exact field [_, _, _, _, _] _ _ 5 rfl
  · exact field [_, _, _, _, _, _] _ _ 6 rfl
  · exact field [_, _, _, _, _, _, _] _ [] 7 rfl

/-! ## What the decoder accepts -/

section Offsets

variable (af : TsAdaptationField)

/-- Where the second clock lies, counted from the flags byte. -/
def opcrOffset : Nat := 1 + if af.pcrFlag then 6 else 0

/-- Where the splice countdown lies. -/
def spliceOffset : Nat := af.opcrOffset + if af.opcrFlag then 6 else 0

/-- Where the size of the private data lies. -/
def privateOffset : Nat := af.spliceOffset + if af.splicingPointFlag then 1 else 0

end Offsets

section Wire

-- the bytes that follow the length byte
variable [Compilation] (l : List UInt8)

/-- The field with its flags read. -/
def wireFlags : TsAdaptationField := construct.setFlags (l.headD 0).toNat

/-- The private data `l` announces. -/
def wirePrivate : Block :=
  Block.take (l.drop ((wireFlags l).privateOffset + 1)) (l.getD (wireFlags l).privateOffset 0)

/-- How many bytes the flags byte and the fields it announces take. -/
def wireSize : Nat :=
  (wireFlags l).privateOffset +
    if (wireFlags l).transportPrivateDataFlag then 1 + (l.getD (wireFlags l).privateOffset 0).toNat else 0

/-- The field with its flags, clocks and splice countdown read. -/
def wireClocks : TsAdaptationField :=
  let af := wireFlags l
  { af with
    pcr := if af.pcrFlag then TsPcr.read (l.drop 1) else 0
    opcr := if af.opcrFlag then TsPcr.read (l.drop af.opcrOffset) else 0
    spliceCountdown := if af.splicingPointFlag then l.getD af.spliceOffset 0 else 0 }

/-- The field the decoder makes of `l`. -/
def wireField : TsAdaptationField :=
  { wireClocks l with
    adaptationFieldExtensionFlag := false
    privateData := if (wireFlags l).transportPrivateDataFlag then wirePrivate l else default
    ebp := if (wireFlags l).transportPrivateDataFlag then TsEbp.ofData (wirePrivate l).data else {} }

end Wire

theorem privateOffset_le (af : TsAdaptationField) : af.privateOffset ≤ 14 := by
  simp only [privateOffset, spliceOffset, opcrOffset]
  split <;> split <;> split <;> omega

theorem wireSize_le (l : List UInt8) : wireSize l ≤ 270 := by
  have offset := privateOffset_le (wireFlags l)
  have byte := (l.getD (wireFlags l).privateOffset 0).toNat_lt
  unfold wireSize
  split <;> omega

/-! ## Only the announced fields matter -/

section Locality

variable {l : List UInt8} {n : Nat}

theorem getD_take {k : Nat} (inside : k < n) : (l.take n).getD k 0 = l.getD k 0 := by
  simp [List.getD_eq_getElem?_getD, inside]

theorem privateOffset_pos (af : TsAdaptationField) : 1 ≤ af.privateOffset := by
  simp only [privateOffset, spliceOffset, opcrOffset]
  omega

theorem privateOffset_le_wireSize (l : List UInt8) : (wireFlags l).privateOffset ≤ wireSize l := by
  unfold wireSize
  omega

theorem wireFlags_take (positive : 1 ≤ n) : wireFlags (l.take n) = wireFlags l := by
  obtain ⟨m, rfl⟩ : ∃ m, n = m + 1 := ⟨n - 1, by omega⟩
  cases l <;> rfl

theorem wireSize_take (fits : wireSize l ≤ n) : wireSize (l.take n) = wireSize l := by
  have positive := privateOffset_pos (wireFlags l)
  have offset := privateOffset_le_wireSize l
  unfold wireSize at fits ⊢
  rw [wireFlags_take (by omega)]
  by_cases flag : (wireFlags l).transportPrivateDataFlag = true
  · rw [if_pos flag] at fits
    rw [if_pos flag, if_pos flag, getD_take (by omega)]
  · rw [if_neg flag, if_neg flag]

theorem wireClocks_take [Compilation] (offsets : (wireFlags l).privateOffset ≤ n) :
    wireClocks (l.take n) = wireClocks l := by
  have clock : ∀ (c : Bool) (k : Nat), k + (if c then 6 else 0) ≤ n →
      (if c then TsPcr.read ((l.take n).drop k) else 0) = if c then TsPcr.read (l.drop k) else 0 := by
    intro c k room
    by_cases flag : c = true
    · rw [if_pos flag] at room
      rw [if_pos flag, if_pos flag, List.drop_take, TsPcr.read_take (by omega)]
    · rw [if_neg flag, if_neg flag]
  have splice : (if (wireFlags l).splicingPointFlag then (l.take n).getD (wireFlags l).spliceOffset 0 else 0) =
      if (wireFlags l).splicingPointFlag then l.getD (wireFlags l).spliceOffset 0 else 0 := by
    by_cases flag : (wireFlags l).splicingPointFlag = true
    · unfold privateOffset at offsets
      rw [if_pos flag] at offsets
      rw [if_pos flag, if_pos flag, getD_take (by omega)]
    · rw [if_neg flag, if_neg flag]
  unfold privateOffset at offsets
  have second : (wireFlags l).opcrOffset + (if (wireFlags l).opcrFlag then 6 else 0) ≤ n := by
    unfold spliceOffset at offsets
    omega
  have first : 1 + (if (wireFlags l).pcrFlag then 6 else 0) ≤ n := by
    unfold opcrOffset at second
    omega
  unfold wireClocks
  rw [wireFlags_take (by omega)]
  simp only [clock _ _ first, clock _ _ second, splice]

/-- The field read is a function of the bytes its flags announce. -/
theorem wireField_take [Compilation] (fits : wireSize l ≤ n) : wireField (l.take n) = wireField l := by
  have positive := privateOffset_pos (wireFlags l)
  have offset := privateOffset_le_wireSize l
  have data : (if (wireFlags l).transportPrivateDataFlag then wirePrivate (l.take n) else default) =
      if (wireFlags l).transportPrivateDataFlag then wirePrivate l else default := by
    by_cases flag : (wireFlags l).transportPrivateDataFlag = true
    · unfold wireSize at fits
      rw [if_pos flag] at fits
      rw [if_pos flag, if_pos flag]
      unfold wirePrivate
      rw [wireFlags_take (by omega), getD_take (by omega)]
      apply Block.ext
      simp only [Block.take, List.drop_take, List.take_take]
      rw [Nat.min_eq_left (by omega)]
    · rw [if_neg flag, if_neg flag]
  have marker : (if (wireFlags l).transportPrivateDataFlag then TsEbp.ofData (wirePrivate (l.take n)).data else {}) =
      if (wireFlags l).transportPrivateDataFlag then TsEbp.ofData (wirePrivate l).data else {} := by
    by_cases flag : (wireFlags l).transportPrivateDataFlag = true
    · rw [if_pos flag, if_pos flag] at data
      rw [if_pos flag, if_pos flag, data]
    · rw [if_neg flag, if_neg flag]
  unfold wireField
  rw [wireClocks_take (by omega), wireFlags_take (by omega), data, marker]

end Locality

section Unpack

variable {s : Bytestream} {l : List UInt8}

/-- The end of `unpack` after `used` bytes, on a field that is all there. -/
theorem unpackRest_accepts (h : s.Holds l) (af : TsAdaptationField) {len used : Nat}
    (fits : used ≤ len) (there : len ≤ l.length) (small : len < 2 ^ 8) :
    unpackRest af len l.length (s.skip used) =
      (1, { af with adaptationFieldExtensionFlag := false }, s.skip len) := by
  have left : used + sizeSub len used = len := by
    rw [sizeSub_of_le fits (by omega)]
    omega
  simp only [unpackRest, h.consumed (by omega : used ≤ l.length) (by omega), Bytestream.skip_skip,
    left, (h.skip there).result]

/-- The end of `unpack` on a field that overruns its length or the stream: the length that
is left is negative, hence a `size_t` no stream has, or too much is skipped. -/
theorem unpackRest_rejects (h : s.Holds l) (af : TsAdaptationField) {len used : Nat}
    (bound : l.length < 2 ^ 63) (small : len < 2 ^ 8) (near : used < 2 ^ 9)
    (overrun : len < used ∨ l.length < len) :
    (unpackRest af len l.length (s.skip used)).1 = -1 := by
  have gone : ∀ n, l.length < n → (s.skip n).result = -1 := by
    intro n few
    rw [h.skip_short few]
    rfl
  simp only [unpackRest, Bytestream.skip_skip]
  apply gone
  by_cases inside : used ≤ l.length
  · rw [h.consumed inside (by omega)]
    by_cases before : len < used
    · rw [sizeSub_of_lt before (by omega)]
      omega
    · rw [sizeSub_of_le (by omega) (by omega)]
      omega
  · omega

/-- One of the two clocks of `unpack`. -/
theorem clock_eq [Compilation] (c : Bool) (s : Bytestream) (v : BitVec 64) (n : Nat) :
    (if c then (TsPcr.unpack (s.skip n)).2 else (v, s.skip n)) =
      (if c then (TsPcr.unpack (s.skip n)).2.1 else v, s.skip (n + if c then 6 else 0)) := by
  cases c
  · rfl
  · have stream := TsPcr.unpack_stream (s.skip n)
    rw [Bytestream.skip_skip] at stream
    exact Prod.ext rfl stream

/-- The clocks and the splice countdown, with the places they are read at. -/
theorem unpackClocks_eq [Compilation] (af : TsAdaptationField) (s : Bytestream) :
    af.unpackClocks (s.skip 1) =
      ({ af with
          pcr := if af.pcrFlag then (TsPcr.unpack (s.skip 1)).2.1 else af.pcr
          opcr := if af.opcrFlag then (TsPcr.unpack (s.skip af.opcrOffset)).2.1 else af.opcr
          spliceCountdown := if af.splicingPointFlag then UInt8.ofNat (s.skip af.spliceOffset).read8.1
            else af.spliceCountdown },
        s.skip af.privateOffset) := by
  have splice : (if af.splicingPointFlag then
        (UInt8.ofNat (s.skip af.spliceOffset).read8.1, (s.skip af.spliceOffset).read8.2)
      else (af.spliceCountdown, s.skip af.spliceOffset)) =
      (if af.splicingPointFlag then UInt8.ofNat (s.skip af.spliceOffset).read8.1 else af.spliceCountdown,
        s.skip af.privateOffset) := by
    rw [privateOffset]
    split
    · exact Prod.ext rfl (s.skip_skip _ 1)
    · rfl
  simp only [unpackClocks, clock_eq]
  rw [show 1 + (if af.pcrFlag = true then 6 else 0) = af.opcrOffset from rfl,
    show af.opcrOffset + (if af.opcrFlag = true then 6 else 0) = af.spliceOffset from rfl, splice]

/-- The same on a field that is all there. -/
theorem unpackClocks_wire [Compilation] (h : s.Holds l) (offsets : (wireFlags l).privateOffset ≤ l.length) :
    ((wireFlags l).unpackClocks (s.skip 1)).1 = wireClocks l := by
  have clock : ∀ (c : Bool) (n : Nat), n + (if c then 6 else 0) ≤ l.length →
      (if c then (TsPcr.unpack (s.skip n)).2.1 else 0) = if c then TsPcr.read (l.drop n) else 0 := by
    intro c n room
    by_cases flag : c = true
    · rw [if_pos flag] at room
      have rest : (s.skip n).Holds (l.drop n) := h.skip (by omega)
      have enough : 6 ≤ (l.drop n).length := by
        rw [List.length_drop]
        omega
      rw [if_pos flag, if_pos flag, TsPcr.unpack_value rest enough]
    · rw [if_neg flag, if_neg flag]
  unfold privateOffset at offsets
  have second : (wireFlags l).opcrOffset + (if (wireFlags l).opcrFlag then 6 else 0) ≤ l.length := by
    unfold spliceOffset at offsets
    omega
  have first : 1 + (if (wireFlags l).pcrFlag then 6 else 0) ≤ l.length := by
    unfold opcrOffset at second
    omega
  rw [unpackClocks_eq]
  simp only [wireClocks, ← clock _ _ first, ← clock _ _ second, h.read8_getD, UInt8.ofNat_toNat]
  rfl

/-- The private data of `unpack`, on a field that is all there. -/
theorem unpackPrivate_accepts [Compilation] (h : s.Holds l) {len : Nat} (fits : wireSize l ≤ len)
    (there : len ≤ l.length) (small : len < 2 ^ 8) :
    unpackPrivate (wireClocks l) len l.length (s.skip (wireFlags l).privateOffset) =
      (1, wireField l, s.skip len) := by
  unfold wireSize at fits
  unfold unpackPrivate wireField
  rw [show (wireClocks l).transportPrivateDataFlag = (wireFlags l).transportPrivateDataFlag from rfl]
  by_cases flag : (wireFlags l).transportPrivateDataFlag = true
  · rw [if_pos flag] at fits
    have inside : (wireFlags l).privateOffset + 1 ≤ l.length := by omega
    have rest := h.skip inside
    have enough : (l.getD (wireFlags l).privateOffset 0).toNat ≤ (l.drop ((wireFlags l).privateOffset + 1)).length := by
      rw [List.length_drop]
      omega
    have block := rest.readBlock enough
    rw [Bytestream.skip_skip] at block
    have notAbove : ¬ (l.getD (wireFlags l).privateOffset 0).toNat > (s.skip ((wireFlags l).privateOffset + 1)).size := by
      rw [rest.sizeEq]
      omega
    simp only [if_pos flag, h.read8_getD, if_neg notAbove, UInt8.ofNat_toNat, block]
    exact unpackRest_accepts h _ (by omega) there small
  · rw [if_neg flag] at fits
    rw [if_neg flag, unpackRest_accepts h _ (by omega) there small, if_neg flag, if_neg flag]
    rfl

/-- The private data of `unpack`, on a field that overruns. -/
theorem unpackPrivate_rejects (h : s.Holds l) (af : TsAdaptationField)
    (same : af.transportPrivateDataFlag = (wireFlags l).transportPrivateDataFlag) {len : Nat}
    (bound : l.length < 2 ^ 63) (small : len < 2 ^ 8) (overrun : len < wireSize l ∨ l.length < len) :
    (unpackPrivate af len l.length (s.skip (wireFlags l).privateOffset)).1 = -1 := by
  have near := wireSize_le l
  unfold wireSize at near overrun
  unfold unpackPrivate
  rw [same]
  by_cases flag : (wireFlags l).transportPrivateDataFlag = true
  · rw [if_pos flag] at near overrun
    simp only [if_pos flag, h.read8_getD]
    by_cases above : (l.getD (wireFlags l).privateOffset 0).toNat > (s.skip ((wireFlags l).privateOffset + 1)).size
    · rw [if_pos above]
    · rw [if_neg above]
      simp only [Bytestream.readBlock, Bytestream.skip_skip, UInt8.ofNat_toNat]
      exact unpackRest_rejects h _ bound small (by omega) (by omega)
  · rw [if_neg flag] at near overrun
    rw [if_neg flag]
    exact unpackRest_rejects h _ bound small (by omega) overrun

variable {t : Bytestream} {len : UInt8}

/-- `unpack` up to the private data. -/
theorem unpack_eq [Compilation] (h : t.Holds (len :: l)) (nonzero : len ≠ 0) :
    construct.unpack t =
      unpackPrivate ((wireFlags l).unpackClocks ((t.skip 1).skip 1)).1 len.toNat l.length
        ((t.skip 1).skip (wireFlags l).privateOffset) := by
  have rest : (t.skip 1).Holds l := h.skip_cons
  have present : len.toNat ≠ 0 := fun e => nonzero (UInt8.toNat_inj.mp e)
  have flags : (t.skip 1).read8 = ((l.headD 0).toNat, (t.skip 1).skip 1) := by
    have byte := rest.read8_getD 0
    rw [rest.skip_zero] at byte
    rw [byte]
    cases l <;> rfl
  simp only [unpack, h.read8, if_pos present, flags, rest.sizeEq]
  rw [show construct.setFlags (l.headD 0).toNat = wireFlags l from rfl, unpackClocks_eq]

/-- A zero length byte is the whole field. -/
theorem unpack_empty [Compilation] (h : t.Holds (0 :: l)) (af : TsAdaptationField) :
    af.unpack t = (1, af, t.skip 1) := by
  have zero : ¬ (0 : UInt8).toNat ≠ 0 := by decide
  simp only [unpack, h.read8, if_neg zero, h.skip_cons.result]

/-- A field whose announced fields fit in its length, and which is all there, is accepted,
and the decoder stands behind it. -/
theorem unpack_accepts [Compilation] (h : t.Holds (len :: l)) (nonzero : len ≠ 0) (fits : wireSize l ≤ len.toNat)
    (there : len.toNat ≤ l.length) :
    construct.unpack t = (1, wireField l, t.skip (1 + len.toNat)) := by
  have rest : (t.skip 1).Holds l := h.skip_cons
  have offsets : (wireFlags l).privateOffset ≤ l.length := by
    unfold wireSize at fits
    omega
  rw [unpack_eq h nonzero, unpackClocks_wire rest offsets, unpackPrivate_accepts rest fits there len.toNat_lt,
    Bytestream.skip_skip]

/-- Any other field is rejected. -/
theorem unpack_rejects [Compilation] (h : t.Holds (len :: l)) (nonzero : len ≠ 0) (bound : l.length < 2 ^ 63)
    (overrun : len.toNat < wireSize l ∨ l.length < len.toNat) :
    (construct.unpack t).1 = -1 := by
  have rest : (t.skip 1).Holds l := h.skip_cons
  rw [unpack_eq h nonzero]
  apply unpackPrivate_rejects rest _ _ bound len.toNat_lt overrun
  rw [unpackClocks_eq]

end Unpack

/-! ## The decoder only moves forward -/

theorem unpackRest_later (af : TsAdaptationField) (len size : Nat) (s : Bytestream) (n : Nat) :
    s.Later n (unpackRest af len size (s.skip n)).2.2 :=
  (s.later_skip n).skip _

theorem unpackPrivate_later (af : TsAdaptationField) (len size : Nat) (s : Bytestream) (n : Nat) :
    s.Later n (unpackPrivate af len size (s.skip n)).2.2 := by
  simp only [unpackPrivate, Bytestream.read8, Bytestream.readBlock, Bytestream.skip_skip]
  split
  · split
    · exact (s.later_skip (n + 1)).mono (by omega)
    · exact (unpackRest_later _ _ _ s _).mono (by omega)
  · exact unpackRest_later _ _ _ s n

theorem unpack_later [Compilation] (af : TsAdaptationField) (s : Bytestream) : s.Later 1 (af.unpack s).2.2 := by
  simp only [unpack]
  by_cases present : s.read8.1 ≠ 0
  · have later := unpackPrivate_later
      ((af.setFlags (s.skip 1).read8.1).unpackClocks ((s.skip 1).skip 1)).1 s.read8.1 (s.skip 1).size s
      (1 + (af.setFlags (s.skip 1).read8.1).privateOffset)
    have clocks : ((af.setFlags (s.skip 1).read8.1).unpackClocks ((s.skip 1).skip 1)).2 =
        s.skip (1 + (af.setFlags (s.skip 1).read8.1).privateOffset) :=
      (congrArg Prod.snd (unpackClocks_eq _ (s.skip 1))).trans (s.skip_skip 1 _)
    rw [← clocks] at later
    rw [if_pos present]
    exact later.mono (by omega)
  · rw [if_neg present]
    exact s.later_skip 1

end TsAdaptationField
end Libts
