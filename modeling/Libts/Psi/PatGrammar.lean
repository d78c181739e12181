import Libts.Psi.Header
import Libts.Psi.Pat

/-!
# The units of a program association

The decoder reads one entry and a checksum behind the header, whatever length the header
announces: only that as many bytes are there (`unpackStream_iff`). So the entry is the one
of the section, and what is behind it its checksum, exactly where the length is 13
(`staysInside_iff`).
-/

namespace Libts
set_option autoImplicit false

open CArith

/-- A unit with a program association: the bytes the pointer skips, the header, an entry, and
what is behind the entry. -/
structure TsPatUnit where
  skipped : Block
  psi : TsPsi
  programNumber : UInt16
  programPid : BitVec 13
  behind : List UInt8
  id : psi.id = 0x00
  low : 9 ≤ psi.sectionLength.toNat
  there : psi.sectionLength.toNat ≤ behind.length + 9
  checksum : 4 ≤ behind.length

namespace TsPatUnit

/-- The table that is read. -/
def decoded (u : TsPatUnit) : TsPat :=
  { id := 0
    idExtension := u.psi.idExtension.toNat
    version := u.psi.version.toNat
    programNumber := u.programNumber
    programPid := u.programPid }

def bytes (u : TsPatUnit) : List UInt8 :=
  TsPsi.pointerBytes u.skipped ++ (u.psi.headerBytes ++
    (BigEndian.bytes 4 (BitField.word [(u.programNumber.toNat, 16), (7, 3), (u.programPid.toNat, 13)]) ++ u.behind))

end TsPatUnit

namespace TsPat

variable {s t : Bytestream} {l : List UInt8} {pat : TsPat}

/-- The entry behind a header that was read. -/
theorem unpackStream_start {middle : Bytestream} {psi : TsPsi} (pat : TsPat)
    (pointer : TsPsi.pointerUnpack s = (1, middle)) (header : TsPsi.constructStream middle = (1, psi, t)) :
    pat.unpackStream s =
      let read := { pat with id := psi.id.toNat, idExtension := psi.idExtension.toNat, version := psi.version.toNat }
      let v := uint64OfInt (intOfSize t.read32.1)
      let entry := { read with
        programNumber := UInt16.ofNat (readBits v 32 0 16)
        programPid := BitVec.ofNat 13 (readBits v 32 19 13) }
      if readBits v 32 16 3 ≠ 0x07 then (-1, read, t.skip 4)
      else (if (psi.id.toNat : Int) ≠ 0x00 then -1 else (t.skip 8).result, entry, t.skip 8) := by
  have accepted : ¬ (1 : Int) ≤ 0 := by decide
  simp only [unpackStream, pointer, header, if_neg accepted]
  split
  · rfl
  · have moved : t.read32.2.read32.2 = t.skip 8 := t.skip_skip 4 4
    rw [moved]
    split <;> rfl

/-- A unit that is accepted has a header. -/
theorem exists_start (accepted : construct.unpackStream s = (1, pat, t)) :
    ∃ middle psi behind, TsPsi.pointerUnpack s = (1, middle) ∧ TsPsi.constructStream middle = (1, psi, behind) := by
  have result : (construct.unpackStream s).1 = 1 := by rw [accepted]
  have pass : ¬ (1 : Int) ≤ 0 := by decide
  obtain missing | ⟨middle, pointer, missing | refused | ⟨psi, behind, header⟩⟩ := TsPsi.start_cases s
  · simp only [unpackStream, missing] at result
    cases result
  · simp only [unpackStream, pointer, if_neg pass, missing] at result
    cases result
  · simp only [unpackStream, pointer, if_neg pass, refused] at result
    cases result
  · exact ⟨middle, psi, behind, pointer, header⟩

/-- A word with the reserved bits of an entry. -/
theorem exists_entry {v : Nat} (small : v < 2 ^ 32) (right : readBits (uint64OfInt (intOfSize v)) 32 16 3 = 0x07) :
    ∃ (number : UInt16) (pid : BitVec 13), v = BitField.word [(number.toNat, 16), (7, 3), (pid.toNat, 13)] := by
  have third : readBits v 32 16 3 = v / 2 ^ 13 % 2 ^ 3 := readBits_div (by decide)
  have none : BitField.word [] = 0 := rfl
  rw [readBits_int small (by decide) (by decide), third] at right
  refine ⟨UInt16.ofNat (v / 2 ^ 16), BitVec.ofNat 13 v, ?_⟩
  simp only [BitField.word_cons, BitField.width, none, BitVec.toNat_ofNat, UInt16.toNat_ofNat']
  omega

/-- The fields of an entry, on their way through `int`. -/
theorem fields_entry (number : UInt16) (pid : BitVec 13) :
    readBits (uint64OfInt (intOfSize (BitField.word [(number.toNat, 16), (7, 3), (pid.toNat, 13)]))) 32 16 3 = 7 ∧
      UInt16.ofNat (readBits (uint64OfInt (intOfSize
        (BitField.word [(number.toNat, 16), (7, 3), (pid.toNat, 13)]))) 32 0 16) = number ∧
      BitVec.ofNat 13 (readBits (uint64OfInt (intOfSize
        (BitField.word [(number.toNat, 16), (7, 3), (pid.toNat, 13)]))) 32 19 13) = pid := by
  have fields := fields_dataWord { programNumber := number, programPid := pid }
  rw [dataWord_eq] at fields
  exact fields

/-- What is accepted is a unit. -/
theorem exists_of_unpackStream (h : s.Holds l) (accepted : construct.unpackStream s = (1, pat, t)) :
    ∃ u : TsPatUnit, l = u.bytes ∧ pat = u.decoded := by
  obtain ⟨middle, psi, behind, pointer, header⟩ := exists_start accepted
  rw [unpackStream_start construct pointer header] at accepted
  simp only at accepted
  split at accepted
  · cases accepted
  · rename_i right
    split at accepted
    · cases accepted
    · rename_i own
      have id : psi.id = 0x00 := TsPsi.id_eq_of_toNat (not_not.mp own)
      have named : psi.id ≠ 0xff := by
        rw [id]
        decide
      obtain ⟨skipped, rest, rfl, low, enough, rfl⟩ := (TsPsi.start_iff h named).1 ⟨middle, pointer, header⟩
      have behind := TsPsi.holds_behind_header h
      have valid : ((s.skip (1 + skipped.size + 8)).skip 8).valid = true := by
        by_contra ended
        have result := congrArg Prod.fst accepted
        simp only [Bytestream.result, if_neg ended] at result
        cases result
      have eight : 8 ≤ rest.length := by
        rw [← behind.sizeEq]
        exact (Bytestream.valid_skip.1 valid).1
      obtain ⟨v, rest, small, rfl⟩ := BigEndian.exists_bytes (n := 4) (l := rest) (by omega)
      rw [List.length_append, BigEndian.length_bytes] at eight enough
      have v' : v % 2 ^ 32 = v := Nat.mod_eq_of_lt small
      rw [behind.read32_bytes, v'] at right accepted
      obtain ⟨number, pid, rfl⟩ := exists_entry small (not_not.mp right)
      obtain ⟨-, number', pid'⟩ := fields_entry number pid
      rw [number', pid', id] at accepted
      refine ⟨⟨skipped, psi, number, pid, rest, id, low, by omega, by omega⟩, rfl, ?_⟩
      exact (congrArg (fun read => read.2.1) accepted).symm

/-- Every unit is accepted. -/
theorem exists_unpackStream_unit (u : TsPatUnit) (h : s.Holds u.bytes) :
    ∃ t, construct.unpackStream s = (1, u.decoded, t) := by
  obtain ⟨skipped, psi, number, pid, behind, id, low, there, checksum⟩ := u
  have named : psi.id ≠ 0xff := by
    rw [id]
    decide
  have whole : s.Holds (TsPsi.pointerBytes skipped ++ (psi.headerBytes ++
      (BigEndian.bytes 4 (BitField.word [(number.toNat, 16), (7, 3), (pid.toNat, 13)]) ++ behind))) := h
  obtain ⟨middle, pointer, header⟩ := (TsPsi.start_iff whole named).2 ⟨skipped, _, rfl, low, by
    rw [List.length_append, BigEndian.length_bytes]
    omega, rfl⟩
  have rest := TsPsi.holds_behind_header whole
  have ended := (rest.skip_append (BigEndian.length_bytes 4 _)).skip checksum
  rw [Bytestream.skip_skip] at ended
  have small := BitField.word_lt [(number.toNat, 16), (7, 3), (pid.toNat, 13)]
  have word : BitField.word [(number.toNat, 16), (7, 3), (pid.toNat, 13)] % 2 ^ 32 = _ := Nat.mod_eq_of_lt small
  obtain ⟨reserved, number', pid'⟩ := fields_entry number pid
  have own : ¬ ((0x00 : UInt8).toNat : Int) ≠ 0x00 := by decide
  refine ⟨(s.skip (1 + skipped.size + 8)).skip 8, ?_⟩
  rw [unpackStream_start construct pointer header]
  simp only [rest.read32_bytes, word, reserved, ne_eq, not_true_eq_false, if_false, id, if_neg own, ended.result, number',
    pid']
  rfl

theorem unpackStream_iff (h : s.Holds l) :
    (∃ t, construct.unpackStream s = (1, pat, t)) ↔ ∃ u : TsPatUnit, l = u.bytes ∧ pat = u.decoded := by
  constructor
  · rintro ⟨t, accepted⟩
    exact exists_of_unpackStream h accepted
  · rintro ⟨u, rfl, rfl⟩
    exact exists_unpackStream_unit u h

theorem exists_unit {b : Buffer} (accepted : construct.unpackBuffer b = (1, pat)) :
    ∃ u : TsPatUnit, b = u.bytes ∧ pat = u.decoded := by
  have filled : b ≠ [] := by
    rintro rfl
    have refused : (construct.unpackBuffer []).1 = 0 := by decide
    rw [accepted] at refused
    cases refused
  have read : (construct.unpackStream (Bytestream.constructBuffer b)).1 = 1 := congrArg Prod.fst accepted
  have value : (construct.unpackStream (Bytestream.constructBuffer b)).2.1 = pat := congrArg Prod.snd accepted
  apply (unpackStream_iff (Bytestream.holds_constructBuffer filled)).1
  refine ⟨(construct.unpackStream (Bytestream.constructBuffer b)).2.2, ?_⟩
  rw [← value, ← read]

/-- What is reported lies in the section and is all that is in it. -/
def StaysInside (b : Buffer) : Prop :=
  ∀ pat : TsPat, construct.unpackBuffer b = (1, pat) →
    TsPsi.lengthIn (TsPsi.pointed b) = 13 ∧ TsPsi.dataIn (TsPsi.pointed b) = BigEndian.bytes 4 pat.dataWord

/-- **The entry of a program association** is taken from the section unless the unit has
another length in its header. -/
theorem staysInside_iff {b : Buffer} :
    StaysInside b ↔ ∀ u : TsPatUnit, b = u.bytes → u.psi.sectionLength.toNat = 13 := by
  constructor
  · rintro inside u rfl
    have filled : u.bytes ≠ [] := List.cons_ne_nil _ _
    obtain ⟨t, read⟩ := (unpackStream_iff (Bytestream.holds_constructBuffer filled)).2 ⟨u, rfl, rfl⟩
    obtain ⟨length, -⟩ := inside u.decoded (by rw [unpackBuffer, read])
    rw [TsPatUnit.bytes, TsPsi.pointed_pointerBytes, TsPsi.lengthIn_header] at length
    exact length
  · intro only pat accepted
    obtain ⟨u, rfl, rfl⟩ := exists_unit accepted
    have length := only u rfl
    rw [TsPatUnit.bytes, TsPsi.pointed_pointerBytes, TsPsi.lengthIn_header]
    refine ⟨length, ?_⟩
    rw [TsPsi.dataIn_header _ (by rw [length, BigEndian.length_bytes]), dataWord_eq]
    rfl

/-- A section with two programs; the entry of the second is read as the checksum. -/
def twoPrograms : Buffer :=
  [0x00, 0x00, 0xb0, 0x11, 0x00, 0x01, 0xc1, 0x00, 0x00, 0x00, 0x01, 0xe1, 0x00, 0x00, 0x02, 0xe2, 0x00, 0x00, 0x00, 0x00,
    0x00]

theorem not_staysInside_two : ¬ StaysInside twoPrograms := by
  intro inside
  obtain ⟨length, -⟩ := inside { idExtension := 1, programNumber := 1, programPid := 0x100 } (by decide)
  exact absurd length (by decide)

end TsPat
end Libts
