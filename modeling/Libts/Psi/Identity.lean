import Libts.Psi.PatGrammar
import Libts.Psi.PmtRoundTrip

/-!
# The identity of a table

A table has an extension of its identifier and a version, and the decoders report both. The
encoders write 1 and 0, whatever the table says.
-/

namespace Libts
set_option autoImplicit false

open CArith

/-- What the 16 bits of an extension and the 5 bits of a version can hold. -/
structure IdentityInRange (idExtension version : Int) : Prop where
  extension : 0 ≤ idExtension ∧ idExtension < 2 ^ 16
  version : 0 ≤ version ∧ version < 2 ^ 5

namespace TsPat

/-- An association that is encoded and decoded again is the same. -/
def KeepsIdentity (pat : TsPat) : Prop :=
  pat.id = 0 → IdentityInRange pat.idExtension pat.version → ∀ b, pat.packBuffer [] = some (1, b) →
    ∃ q, construct.unpackBuffer b = (1, q) ∧ q.idExtension = pat.idExtension ∧ q.version = pat.version ∧
      q.programNumber = pat.programNumber ∧ q.programPid = pat.programPid

theorem keepsIdentity_pat_iff (pat : TsPat) :
    pat.KeepsIdentity ↔ (pat.id = 0 → IdentityInRange pat.idExtension pat.version →
      pat.idExtension = 1 ∧ pat.version = 0) := by
  constructor
  · intro keeps own range
    obtain ⟨q, decoded, extension, version, -⟩ := keeps own range _ pat.packBuffer_eq
    rw [unpackBuffer_packetBytes] at decoded
    cases decoded
    exact ⟨extension.symm, version.symm⟩
  · intro fixed own range b packed
    obtain ⟨extension, version⟩ := fixed own range
    rw [packBuffer_eq] at packed
    cases packed
    exact ⟨_, pat.unpackBuffer_packetBytes, extension.symm, version.symm, rfl, rfl⟩

end TsPat

namespace TsPmt

/-- A map that is encoded and decoded again has the same extension and version. -/
def KeepsIdentity (pmt : TsPmt) : Prop :=
  pmt.id = 2 → IdentityInRange pmt.idExtension pmt.version → ∀ b, pmt.packBuffer [] = some (1, b) →
    ∃ q, construct.unpackBuffer b = (1, q) ∧ q.idExtension = pmt.idExtension ∧ q.version = pmt.version

/-- The map without the streams behind the first `k`. -/
def cut (pmt : TsPmt) (k : Nat) : TsPmt := { pmt with streams := pmt.streams.take k }

/-- What the length field holds of the section length is the length of a section with the first
streams. It is all of them where the length fits its field. -/
def LengthWhole (pmt : TsPmt) : Prop := ∃ k, pmt.sectionLength % 2 ^ 10 = (pmt.cut k).sectionLength

section Section

variable {pmt : TsPmt}

/-- The unit as the decoder takes it apart. -/
theorem packetBytes_eq (pmt : TsPmt) : ∃ behind, 4 ≤ behind.length ∧
    pmt.packetBytes = TsPsi.pointerBytes default ++
      ({ psi with sectionLength := BitVec.ofNat 10 pmt.sectionLength }.headerBytes ++ (pmt.data.bytes ++ behind)) := by
  refine ⟨BigEndian.bytes 4 (TsPsi.crc (psi.body pmt.dataBytes)).toNat ++
    List.replicate (TsPsi.padding (0 :: psi.sectionBytes pmt.dataBytes).length) 0xff, ?_, ?_⟩
  · rw [List.length_append, BigEndian.length_bytes]
    exact Nat.le_add_right _ _
  · rw [packetBytes, bytes_data, ← length_dataBytes]
    simp only [TsPsi.sectionBytes_eq psi, List.append_assoc, List.cons_append]
    rfl

theorem data_cut (pmt : TsPmt) (k : Nat) : (pmt.cut k).data = { pmt.data with entries := pmt.data.entries.take k } := by
  simp only [data, cut, List.map_take]

/-- The data of the first streams is in front of that of the others. -/
theorem bytes_cut (pmt : TsPmt) (k : Nat) :
    (pmt.cut k).data.bytes ++ (pmt.streams.drop k).flatMap TsPmtStream.bytes = pmt.data.bytes := by
  rw [bytes_data, bytes_data, dataBytes, dataBytes, List.append_assoc, cut, ← List.flatMap_append,
    List.take_append_drop]

theorem length_bytes_cut (pmt : TsPmt) (k : Nat) : (pmt.cut k).data.bytes.length + 9 = (pmt.cut k).sectionLength := by
  rw [bytes_data, length_dataBytes]

/-- The streams that the length field leaves in the section are read, with the identity the encoder
gives every map. -/
theorem exists_unpackBuffer (whole : pmt.LengthWhole) :
    ∃ q, construct.unpackBuffer pmt.packetBytes = (1, q) ∧ q.idExtension = 1 ∧ q.version = 0 := by
  obtain ⟨k, length⟩ := whole
  obtain ⟨behind, checksum, bytes⟩ := pmt.packetBytes_eq
  have field : (BitVec.ofNat 10 pmt.sectionLength).toNat = (pmt.cut k).data.bytes.length + 9 := by
    rw [BitVec.toNat_ofNat, length, length_bytes_cut]
  have enough : 4 ≤ ((pmt.streams.drop k).flatMap TsPmtStream.bytes ++ behind).length := by
    rw [List.length_append]
    omega
  let unit : TsPmtUnit :=
    { skipped := default
      psi := { psi with sectionLength := BitVec.ofNat 10 pmt.sectionLength }
      data := (pmt.cut k).data
      behind := (pmt.streams.drop k).flatMap TsPmtStream.bytes ++ behind
      id := rfl
      length := field
      checksum := enough }
  have same : pmt.packetBytes = unit.bytes := by
    rw [bytes, ← pmt.bytes_cut k, List.append_assoc]
    rfl
  refine ⟨unit.decoded, ?_, rfl, rfl⟩
  rw [same, unpackBuffer_unit]

/-- A unit whose length field ends inside a stream is refused. -/
theorem lengthWhole_of_unpackBuffer {q : TsPmt} (accepted : construct.unpackBuffer pmt.packetBytes = (1, q)) :
    pmt.LengthWhole := by
  obtain ⟨behind, -, bytes⟩ := pmt.packetBytes_eq
  obtain ⟨d, start, inside, length, -⟩ := unpackBuffer_accepted accepted
  have field : (BitVec.ofNat 10 pmt.sectionLength).toNat = pmt.sectionLength % 2 ^ 10 := BitVec.toNat_ofNat _ _
  have total := pmt.length_dataBytes
  rw [← bytes_data] at total
  rw [bytes, TsPsi.pointed_pointerBytes, TsPsi.lengthIn_header, field] at length
  rw [bytes, TsPsi.pointed_pointerBytes, TsPsi.dataIn, TsPsi.lengthIn_header, field,
    List.drop_left' (TsPsi.length_headerBytes _), List.take_append_of_le_length (by omega)] at inside
  have split : d.bytes ++ pmt.data.bytes.drop (pmt.sectionLength % 2 ^ 10 - 9) = pmt.data.bytes := by
    rw [← inside, List.take_append_drop]
  refine ⟨d.entries.length, ?_⟩
  rw [← length, ← length_bytes_cut, data_cut, ← TsPmtData.eq_take_of_append split]

/-- What the encoder accepts. -/
theorem packBuffer_one_iff {b : Buffer} :
    pmt.packBuffer [] = some (1, b) ↔ intOfSize pmt.sectionLength ≤ 1021 ∧ b = pmt.packetBytes := by
  rw [packBuffer_eq]
  by_cases long : intOfSize pmt.sectionLength > 1021
  · rw [if_pos long]
    constructor
    · intro packed
      cases packed
    · rintro ⟨short, -⟩
      omega
  · rw [if_neg long]
    constructor
    · intro packed
      cases packed
      exact ⟨by omega, rfl⟩
    · rintro ⟨-, rfl⟩
      rfl

end Section

theorem keepsIdentity_pmt_iff (pmt : TsPmt) :
    pmt.KeepsIdentity ↔ (pmt.id = 2 → IdentityInRange pmt.idExtension pmt.version →
      intOfSize pmt.sectionLength ≤ 1021 → pmt.idExtension = 1 ∧ pmt.version = 0 ∧ pmt.LengthWhole) := by
  constructor
  · intro keeps own range short
    obtain ⟨q, decoded, extension, version⟩ := keeps own range _ (packBuffer_one_iff.2 ⟨short, rfl⟩)
    have whole := lengthWhole_of_unpackBuffer decoded
    obtain ⟨r, again, one, zero⟩ := exists_unpackBuffer whole
    rw [decoded] at again
    cases again
    exact ⟨extension ▸ one, version ▸ zero, whole⟩
  · intro fixed own range b packed
    obtain ⟨short, rfl⟩ := packBuffer_one_iff.1 packed
    obtain ⟨extension, version, whole⟩ := fixed own range short
    obtain ⟨q, decoded, one, zero⟩ := exists_unpackBuffer whole
    exact ⟨q, decoded, one.trans extension.symm, zero.trans version.symm⟩

end TsPmt

/-- **The identity of a table survives** exactly when it is the one that the encoders write:
extension 1 and version 0. (A map so long that its length wraps has to wrap to that of its first
streams.) -/
theorem keepsIdentity_iff (pat : TsPat) (pmt : TsPmt) :
    (pat.KeepsIdentity ↔ (pat.id = 0 → IdentityInRange pat.idExtension pat.version →
      pat.idExtension = 1 ∧ pat.version = 0)) ∧
    (pmt.KeepsIdentity ↔ (pmt.id = 2 → IdentityInRange pmt.idExtension pmt.version →
      intOfSize pmt.sectionLength ≤ 1021 → pmt.idExtension = 1 ∧ pmt.version = 0 ∧ pmt.LengthWhole)) :=
  ⟨pat.keepsIdentity_pat_iff, pmt.keepsIdentity_pmt_iff⟩

/-- Version 1 of an association is read as version 0. -/
theorem not_keepsIdentity_version :
    ¬ ({ idExtension := 1, version := 1, programNumber := 1, programPid := 256 } : TsPat).KeepsIdentity := by
  rw [TsPat.keepsIdentity_pat_iff]
  intro fixed
  have version := (fixed rfl ⟨by decide, by decide⟩).2
  contradiction

end Libts
