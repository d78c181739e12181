import Libts.Bytestream

/-!
# The encoder boundary point

`ts_ebp.c`: a marker recognised in the private data of an adaptation field by its tag and
its four-character identifier.
-/

namespace Libts
set_option autoImplicit false

structure TsEbp where
  marker : Bool := false
  time : BitVec 64 := 0
deriving Repr, DecidableEq

namespace TsEbp

def construct : TsEbp := {}

/-- `"EBP0"`. -/
def identifier : List UInt8 := [0x45, 0x42, 0x50, 0x30]

/-- The part of `unpack` after the identifier was recognised. -/
def unpackFields (ebp : TsEbp) (s : Bytestream) : Int × TsEbp × Bytestream :=
  let (flags, s) := s.read8
  let s := if flags &&& 0x01 ≠ 0 then s.read8.2 else s
  let s := if flags &&& 0x20 ≠ 0 then s.read8.2 else s
  let s := if flags &&& 0x10 ≠ 0 then s.read16.2 else s
  if flags &&& 0x08 ≠ 0 then
    let (time, s) := s.read64
    (s.result, { ebp with time := BitVec.ofNat 64 time }, s)
  else (s.result, ebp, s)

/-- `strncmp` of four characters with `"EBP0"`, which has no NUL among them, is zero
exactly on equality. -/
def unpack (ebp : TsEbp) (s : Bytestream) : Int × TsEbp × Bytestream :=
  let (tag, s) := s.read8
  let (_, s) := s.read8
  let (id, s) := s.read 4
  if tag ≠ 0xdf ∨ id ≠ identifier then (0, ebp, s)
  else unpackFields { ebp with marker := true } s

/-- What `unpack` does to a constructed marker when the whole of `data` is private data. -/
def ofData (data : List UInt8) : TsEbp :=
  (unpack construct (Bytestream.construct (some data) data.length)).2.1

/-- The bytes that make `unpack` set the marker. -/
def recognised (data : List UInt8) : Bool :=
  decide (6 ≤ data.length) && data.head? == some 0xdf && (data.drop 2).take 4 == identifier

theorem unpackFields_marker (ebp : TsEbp) (s : Bytestream) :
    (unpackFields ebp s).2.1.marker = ebp.marker := by
  simp only [unpackFields]
  split <;> rfl

theorem unpack_marker (ebp : TsEbp) (s : Bytestream) :
    (unpack ebp s).2.1.marker =
      if BigEndian.value (s.peek 1) ≠ 0xdf ∨ (s.skip 2).peek 4 ≠ identifier then ebp.marker else true := by
  have id : ((s.skip 1).skip 1).peek 4 = (s.skip 2).peek 4 := by rw [Bytestream.skip_skip]
  simp only [unpack, Bytestream.read8, Bytestream.read, id]
  by_cases h : BigEndian.value (s.peek 1) ≠ 0xdf ∨ (s.skip 2).peek 4 ≠ identifier
  · rw [if_pos h, if_pos h]
  · rw [if_neg h, if_neg h, unpackFields_marker]

/-- The marker is set exactly on the bytes that carry its tag and identifier. -/
theorem ofData_marker (data : List UInt8) : (ofData data).marker = recognised data := by
  have h := Bytestream.holds_construct data
  rw [ofData, unpack_marker, recognised]
  by_cases six : 6 ≤ data.length
  · cases data with
    | nil => simp at six
    | cons tag rest =>
      have id : ((Bytestream.construct (some (tag :: rest)) (tag :: rest).length).skip 2).peek 4 =
          ((tag :: rest).drop 2).take 4 := by
        apply (h.skip (by omega)).peek
        simp only [List.length_drop]
        omega
      have eq : tag.toNat = 0xdf ↔ tag = 0xdf := by
        rw [← UInt8.toNat_inj]; rfl
      have byte : (Bytestream.construct (some (tag :: rest)) (tag :: rest).length).peek 1 = [tag] :=
        h.peek_append (a := [tag]) rfl
      rw [byte, BigEndian.value_singleton, id]
      by_cases ht : tag = 0xdf <;> by_cases hi : ((tag :: rest).drop 2).take 4 = identifier <;>
        simp_all [construct]
  · -- too short for the identifier: the failed read leaves four zeros
    have id : ((Bytestream.construct (some data) data.length).skip 2).peek 4 = [0, 0, 0, 0] := by
      have few : ((Bytestream.construct (some data) data.length).skip 2).short 4 = true := by
        rw [Bytestream.short_iff, Bytestream.size_skip]
        left
        split
        · decide
        · simp only [Bytestream.construct, Bytestream.size]
          omega
      rw [Bytestream.peek, if_pos few]
      rfl
    rw [id, if_pos (Or.inr (by decide))]
    simp [six, construct]

end TsEbp
end Libts
