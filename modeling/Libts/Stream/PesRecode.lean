import Libts.Stream.PesGrammar
import Libts.Stream.PesLength

/-!
# Encoding a PES that was decoded

The header that is written is not longer than the one that was read, so the length is within
the limit of the encoder again (`packable_wire`). But `ts_pes_unpack_stream` takes six fields
from the first byte of the header, and `ts_pes_header_pack_stream` writes one of them back: a
scrambled payload is encoded again as a clear one, and nothing reports it.
-/

namespace Libts
set_option autoImplicit false

open CArith

namespace TsPes

/-- The encoder does not refuse the length. -/
def Packable (p : TsPes) : Prop := p.isVideo = true ∨ p.countedSize < 65536

theorem Packable.accepted {p : TsPes} (packable : p.Packable) (b : Buffer) : (p.packBuffer b).1 = 1 := by
  have attached : (Bytestream.constructBuffer b).attached = true := rfl
  have short : ¬ p.settledLength ≥ 65536 := by
    rw [settledLength_ge_iff]
    rintro ⟨notVideo, wide⟩
    obtain video | few := packable
    · rw [notVideo] at video
      contradiction
    · exact not_wide_of_lt few wide
  simp only [packBuffer, packStream_eq attached, if_neg short]

/-! ## The size -/

/-- The bytes behind the length field when the header is written without what it does not need. -/
def recodedSize (u : List UInt8) : Nat :=
  3 + 5 * ((ptsBit u).toNat + (dtsBit u).toNat) + (u.length - (9 + headerDataLength u))

section Wire

variable {u : List UInt8} (headed : Headed u)
include headed

theorem countedSize_wire : (wire u).countedSize = recodedSize u := by
  have size : (wire u).headerSize = 3 + 5 * ((ptsBit u).toNat + (dtsBit u).toNat) := by
    rw [headerSize, wire_ptsIndicator headed, wire_dtsIndicator headed]
    cases ptsBit u <;> cases dtsBit u <;> rfl
  have data : (wire u).data.length = u.length - (9 + headerDataLength u) := by
    rw [wire, if_pos headed, List.length_drop]
  rw [countedSize, size, data, recodedSize]

theorem hasHeader_wire : (wire u).hasHeader = true := by
  rw [hasHeader, wire_streamId]
  exact hasHeader_iff.2 headed

/-- What is decoded without an open length is short. -/
theorem Framed.size (framed : Framed u) : (wire u).isVideo = true ∨ recodedSize u < 65536 := by
  obtain ⟨-, -, room, header⟩ := framed.filled headed
  obtain ⟨-, video⟩ | ⟨exactly, -⟩ := framed.length
  · left
    rw [isVideo, wire_streamId]
    exact isVideo_iff.2 video
  · right
    have high := octet_lt u 4
    have low := octet_lt u 5
    rw [lengthField] at exactly
    unfold recodedSize
    omega

/-- What is decoded with a header can be encoded. -/
theorem packable_wire (framed : Framed u) : (wire u).Packable := by
  rw [Packable, countedSize_wire headed]
  exact framed.size headed

/-- The time stamps of a unit have 33 bits, and are zero when they are not there. -/
theorem encodable_wire : (wire u).Encodable := by
  have bits : ∀ (c : Bool) (k : Nat), (if c then BitVec.ofNat 64 (clock u k) else 0).toNat < 2 ^ 33 := by
    intro c k
    have small := clock_lt u k
    split
    · rw [BitVec.toNat_ofNat]
      omega
    · decide
  have header := hasHeader_wire headed
  simp only [hasHeader, Bool.and_eq_true, bne_iff_ne] at header
  have absent : ∀ (c : Bool) (k : Nat), c = false → (if c then BitVec.ofNat 64 (clock u k) else 0) = 0 := by
    intro c k none
    rw [none]
    rfl
  refine ⟨header.1, header.2, ?_, ?_, ?_, ?_⟩
  · rw [wire, if_pos headed]
    exact bits _ _
  · rw [wire, if_pos headed]
    exact bits _ _
  · rw [wire, if_pos headed]
    exact absent _ _
  · rw [wire, if_pos headed]
    exact absent _ _

end Wire

/-! ## The header bits -/

/-- A unit with a header that is decoded and encoded again is decoded to the same header bits. -/
def KeepsBits (u : Buffer) : Prop :=
  ∀ p, construct.unpackBuffer u = (1, p) → p.hasHeader = true → (p.packBuffer []).1 = 1 →
    ∃ q, construct.unpackBuffer (p.packBuffer []).2 = (1, q) ∧
      q.scramblingControl = p.scramblingControl ∧ q.priority = p.priority ∧ q.copyright = p.copyright ∧
        q.originalOrCopy = p.originalOrCopy

/-- The size fits its field, or it is recognised as too long. -/
def SizeFits (size : Nat) : Prop := size < 65536 ∨ size % 65536 = 0 ∨ Wide size

instance (size : Nat) : Decidable (SizeFits size) := inferInstanceAs (Decidable (_ ∨ _ ∨ _))

section Bits

variable {u : Buffer} (headed : Headed u) (framed : Framed u)
include headed

/-- The length that is written passes the check when the size fits. -/
theorem lengthWrong_iff (framed : Framed u) :
    LengthWrong (wire u).streamId ((if (wire u).isVideo ∧ Wide (recodedSize u) then 0 else recodedSize u) % 65536)
      (wire u).body.length ↔ ¬ SizeFits (recodedSize u) := by
  have body : (wire u).body.length = recodedSize u := by
    rw [length_body_eq, if_pos (hasHeader_wire headed), countedSize_wire headed]
  have least : 3 ≤ recodedSize u := by
    unfold recodedSize
    omega
  have same : ({ streamId := (wire u).streamId } : TsPes).isVideo = (wire u).isVideo := rfl
  have short : recodedSize u < 65536 → ¬ Wide (recodedSize u) := fun few wide => by
    unfold Wide at wide
    omega
  have size := framed.size headed
  rw [LengthWrong, body, same, SizeFits]
  by_cases wide : Wide (recodedSize u)
  · have video : (wire u).isVideo = true := size.resolve_right fun few => short few wide
    simp [wide, video]
  · cases video : (wire u).isVideo
    · rw [video] at size
      have few := size.resolve_left Bool.false_ne_true
      simp [wide]
      omega
    · simp [wide]
      omega

/-- What the second decoding makes of it. -/
theorem unpackBuffer_recoded (framed : Framed u) : (construct.unpackBuffer ((wire u).packBuffer []).2) =
    if SizeFits (recodedSize u) then (1, (wire u).carried) else (-1, { streamId := (wire u).streamId }) := by
  obtain ⟨len, field⟩ : ∃ len, len = if (wire u).isVideo ∧ Wide (recodedSize u) then 0 else recodedSize u := ⟨_, rfl⟩
  have honest := lengthWrong_iff headed framed
  have written := packStream_cases (wire u) (s := Bytestream.constructBuffer []) rfl
  rw [countedSize_wire headed, ← field] at written
  rw [← field] at honest
  have stored : ((wire u).packBuffer []).2 = (wire u).encoding (len % 65536) := by
    obtain ⟨-, -, refused⟩ | ⟨-, -, stored⟩ := written
    · have packed := (packable_wire headed framed).accepted []
      rw [packBuffer, refused] at packed
      contradiction
    · rw [encoding_eq_iff.2 (Nat.mod_mod len 65536)]
      exact stored
  have small : len % 65536 < 2 ^ 16 := Nat.mod_lt _ (by decide)
  have nonempty : (wire u).encoding (len % 65536) ≠ [] := by simp [encoding, BigEndian.bytes]
  have decoded := (encodable_wire headed).unpackStream_length small (Bytestream.holds_constructBuffer nonempty)
  rw [stored, unpackBuffer, encoding]
  by_cases fits : SizeFits (recodedSize u)
  · rw [if_neg (fun wrong => honest.1 wrong fits)] at decoded
    rw [if_pos fits, decoded]
  · rw [if_pos (honest.2 fits)] at decoded
    rw [if_neg fits, decoded]
    rfl

theorem spare_eq_zero_iff (framed : Framed u) :
    ((0 : BitVec 2) = (wire u).scramblingControl ∧ false = (wire u).priority ∧ false = (wire u).copyright ∧
      false = (wire u).originalOrCopy) ↔ octet u 6 = 0x80 ∨ octet u 6 = 0x84 := by
  have marker := (framed.filled headed).marker
  have small := octet_lt u 6
  obtain ⟨b, byte⟩ : ∃ b, b = octet u 6 := ⟨_, rfl⟩
  have scrambling : (0 : BitVec 2) = BitVec.ofNat 2 (b / 16) ↔ b / 16 % 4 = 0 := by
    rw [← BitVec.toNat_inj, BitVec.toNat_ofNat]
    exact eq_comm
  rw [wire, if_pos headed]
  simp only [← byte, scrambling, Nat.testBit_eq_decide_div_mod_eq, eq_comm (a := false), decide_eq_false_iff_not] at *
  omega

end Bits

/-- **The header bits survive** exactly when there are none but the alignment, and the size of the
new encoding fits or is recognised as too long. -/
theorem keepsBits_iff (u : Buffer) :
    KeepsBits u ↔ (Framed u → Headed u → (octet u 6 = 0x80 ∨ octet u 6 = 0x84) ∧ SizeFits (recodedSize u)) := by
  constructor
  · intro keeps framed headed
    have packed := (packable_wire headed framed).accepted []
    obtain ⟨q, decoded, scrambling, priority, copyright, original⟩ :=
      keeps (wire u) (unpackBuffer_framed.2 ⟨framed, rfl⟩) (hasHeader_wire headed) packed
    rw [unpackBuffer_recoded headed framed] at decoded
    split at decoded
    · rename_i fits
      cases decoded
      exact ⟨(spare_eq_zero_iff headed framed).1 ⟨scrambling, priority, copyright, original⟩, fits⟩
    · cases decoded
  · intro spare p accepted header packed
    obtain ⟨framed, rfl⟩ := unpackBuffer_framed.1 accepted
    have headed : Headed u := by
      rw [hasHeader, wire_streamId] at header
      exact hasHeader_iff.1 header
    obtain ⟨clear, fits⟩ := spare framed headed
    refine ⟨(wire u).carried, ?_, (spare_eq_zero_iff headed framed).2 clear⟩
    rw [unpackBuffer_recoded headed framed, if_pos fits]

/-- A scrambled payload of one byte. -/
def scrambledUnit : Buffer := [0x00, 0x00, 0x01, 0xc0, 0x00, 0x04, 0x90, 0x00, 0x00, 0x01]

/-- The second decoding finds the payload clear. -/
theorem not_keepsBits_scrambled : ¬ KeepsBits scrambledUnit := by
  intro keeps
  have scrambled : construct.unpackBuffer scrambledUnit =
      (1, { streamId := 0xc0, scramblingControl := 1, data := [1] }) := by decide +kernel
  have clear : construct.unpackBuffer
      (({ streamId := 0xc0, scramblingControl := 1, data := [1] } : TsPes).packBuffer []).2 =
      (1, { streamId := 0xc0, data := [1] }) := by decide +kernel
  obtain ⟨q, decoded, same, -⟩ := keeps _ scrambled (by decide) (by decide +kernel)
  rw [clear] at decoded
  have read := congrArg (fun r : Int × TsPes => r.2.scramblingControl) decoded
  rw [← read] at same
  exact absurd same (by decide)

end TsPes
end Libts
