import Libts.Psi.Psi

/-!
# The program association table

`ts_pat.c`: one program number with the PID of its program map. What the encoder writes is
read back (`unpackBuffer_packetBytes`).
-/

namespace Libts
set_option autoImplicit false

open CArith

structure TsPat where
  id : Int := 0
  idExtension : Int := 0
  version : Int := 0
  programNumber : UInt16 := 0
  programPid : BitVec 13 := 0
deriving Repr, DecidableEq

namespace TsPat

def construct : TsPat := {}

/-- The section header of every table that is written. -/
def psi : TsPsi := { id := 0x00, idExtension := 0x01, version := 0, current := true }

/-- The data of the section. -/
def dataWord (pat : TsPat) : Nat :=
  writeBits pat.programNumber.toNat 32 0 16 |||
  writeBits 0x07 32 16 3 |||
  writeBits pat.programPid.toNat 32 19 13

def packStream (pat : TsPat) (s : Bytestream) : Option (Int × Bytestream) :=
  let (n, s) := TsPsi.pointerPack s
  if n = -1 then some (-1, s)
  else
    let patStream := (Bytestream.constructBuffer []).write32 pat.dataWord
    psi.packStream s patStream

def packBuffer (pat : TsPat) (b : Buffer) : Option (Int × Buffer) :=
  (pat.packStream (Bytestream.constructBuffer b)).map fun (n, s) => (n, s.store)

def unpackStream (pat : TsPat) (s : Bytestream) : Int × TsPat × Bytestream :=
  let (n, s) := TsPsi.pointerUnpack s
  if n ≤ 0 then (n, pat, s)
  else
    let (n, psi, s) := TsPsi.constructStream s
    if n ≤ 0 then (n, pat, s)
    else
      let pat := { pat with id := psi.id.toNat, idExtension := psi.idExtension.toNat, version := psi.version.toNat }
      let (word, s) := s.read32
      let v := uint64OfInt (intOfSize word)
      if readBits v 32 16 3 ≠ 0x07 then (-1, pat, s)
      else
        let pat := { pat with
          programNumber := UInt16.ofNat (readBits v 32 0 16)
          programPid := BitVec.ofNat 13 (readBits v 32 19 13) }
        let (_, s) := s.read32
        if pat.id ≠ 0x00 then (-1, pat, s) else (s.result, pat, s)

def unpackBuffer (pat : TsPat) (b : Buffer) : Int × TsPat :=
  let (n, pat, _) := pat.unpackStream (Bytestream.constructBuffer b)
  (n, pat)

/-! ## The round trip -/

theorem dataWord_eq (pat : TsPat) :
    pat.dataWord = BitField.word [(pat.programNumber.toNat, 16), (7, 3), (pat.programPid.toNat, 13)] := by
  unfold dataWord
  simp (disch := simp [BitField.width]) only [Nat.or_assoc, writeBits_last, writeBits_or_word]

theorem dataWord_lt (pat : TsPat) : pat.dataWord < 2 ^ 32 := by
  rw [dataWord_eq]
  exact BitField.word_lt _

/-- The unit the encoder writes. -/
def packetBytes (pat : TsPat) : List UInt8 :=
  let whole := 0 :: psi.sectionBytes (BigEndian.bytes 4 pat.dataWord)
  whole ++ List.replicate (TsPsi.padding whole.length) 0xff

/-- The whole effect of the encoder on an empty buffer. -/
theorem packBuffer_eq (pat : TsPat) : pat.packBuffer [] = some (1, pat.packetBytes) := by
  have pointer : ¬ (1 : Int) = -1 := by decide
  have data : (Bytestream.constructBuffer []).write32 pat.dataWord =
      Bytestream.constructBuffer (BigEndian.bytes 4 pat.dataWord) := Bytestream.write_constructBuffer [] _
  rw [packBuffer, packStream, TsPsi.pointerPack_constructBuffer]
  simp only [if_neg pointer, data]
  rw [TsPsi.packStream_eq, BigEndian.length_bytes, if_neg (by decide)]
  rfl

variable {s : Bytestream}

/-- The fields of the word, on its way through `int`. -/
theorem fields_dataWord (pat : TsPat) :
    readBits (uint64OfInt (intOfSize pat.dataWord)) 32 16 3 = 7 ∧
      UInt16.ofNat (readBits (uint64OfInt (intOfSize pat.dataWord)) 32 0 16) = pat.programNumber ∧
      BitVec.ofNat 13 (readBits (uint64OfInt (intOfSize pat.dataWord)) 32 19 13) = pat.programPid := by
  have word := pat.dataWord_lt
  have reserved : readBits pat.dataWord 32 16 3 = 7 := by
    rw [dataWord_eq]
    exact readBits_word [_] _ [_] (by decide) rfl
  have number : readBits pat.dataWord 32 0 16 = pat.programNumber.toNat % 2 ^ 16 := by
    rw [dataWord_eq]
    exact readBits_word [] _ [_, _] (by decide) rfl
  have pid : readBits pat.dataWord 32 19 13 = pat.programPid.toNat % 2 ^ 13 := by
    rw [dataWord_eq]
    exact readBits_word [_, _] _ [] (by decide) rfl
  rw [readBits_int word (by decide) (by decide), readBits_int word (by decide) (by decide),
    readBits_int word (by decide) (by decide), number, pid, Nat.mod_eq_of_lt pat.programNumber.toNat_lt,
    Nat.mod_eq_of_lt pat.programPid.isLt, UInt16.ofNat_toNat, BitVec.ofNat_toNat, BitVec.setWidth_eq]
  exact ⟨reserved, rfl, rfl⟩

theorem unpackStream_bytes (pat : TsPat) (h : s.Holds pat.packetBytes) :
    ∃ t, construct.unpackStream s = (1, { pat with id := 0, idExtension := 1, version := 0 }, t) := by
  have named : psi.id ≠ 0xff := by decide
  have high : (BigEndian.bytes 4 pat.dataWord).length + 9 < 2 ^ 10 := by
    rw [BigEndian.length_bytes]
    decide
  have h1 := Bytestream.Holds.skip_cons h
  have header := TsPsi.constructStream_section h1 named high
  have h2 := (TsPsi.unpackStream_section h1 named high).2
  have h3 := h2.skip_append (BigEndian.length_bytes 4 _)
  have h4 := h3.skip_append (BigEndian.length_bytes 4 _)
  have word : ((s.skip 1).skip 8).read32 = (pat.dataWord, ((s.skip 1).skip 8).skip 4) := by
    rw [h2.read32_bytes, Nat.mod_eq_of_lt pat.dataWord_lt]
  obtain ⟨reserved, number, pid⟩ := pat.fields_dataWord
  have accepted : ¬ (1 : Int) ≤ 0 := by decide
  have passes : ¬ readBits (uint64OfInt (intOfSize pat.dataWord)) 32 16 3 ≠ 0x07 := fun other => other reserved
  have id : ¬ ((psi.id.toNat : Nat) : Int) ≠ 0x00 := by decide
  have valid : (((s.skip 1).skip 8).skip 4).read32.2.result = 1 := h4.result
  refine ⟨(((s.skip 1).skip 8).skip 4).read32.2, ?_⟩
  rw [unpackStream, TsPsi.pointerUnpack_zero h]
  simp only [if_neg accepted, header, word, if_neg passes, number, pid, if_neg id, valid]
  rfl

/-- A table that was written is read back. -/
theorem unpackBuffer_packetBytes (pat : TsPat) :
    construct.unpackBuffer pat.packetBytes = (1, { pat with id := 0, idExtension := 1, version := 0 }) := by
  have filled : pat.packetBytes ≠ [] := List.cons_ne_nil _ _
  obtain ⟨t, read⟩ := pat.unpackStream_bytes (Bytestream.holds_constructBuffer filled)
  rw [unpackBuffer, read]

end TsPat
end Libts
