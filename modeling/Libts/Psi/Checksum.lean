import Libts.Base.Crc
import Libts.Psi.Psi

/-!
# The checksum of a section

The table of `ts_psi.c` is the one of the polynomial `0x04c11db7`, so `ts_psi_crc` is a check
bit by bit (`crc_bitwise`), and the check of a section with its checksum is zero. The checksum is
computed over what was written behind the earlier content of the stream, wherever that ends
(`crc_packStream`).
-/

namespace Libts
set_option autoImplicit false

open CArith

namespace TsPsi

/-- The polynomial of the checksum. -/
def polynomial : BitVec 32 := 0x04c11db7

theorem crcTable_eq : crcTable.toList = (List.range 256).map fun i => Crc.entry polynomial (BitVec.ofNat 32 i) := by
  decide +kernel

theorem crcTable_entry (i : BitVec 32) (small : i.toNat < 256) : crcTable[i.toNat]?.getD 0 = Crc.entry polynomial i := by
  rw [← Array.getElem?_toList, crcTable_eq, List.getElem?_map, List.getElem?_range small, Option.map_some,
    Option.getD_some, BitVec.ofNat_toNat, BitVec.setWidth_eq]

/-- The checksum is made bit by bit. -/
theorem crc_bitwise (d : List UInt8) : crc d = Crc.bitwise polynomial 0xffffffff d :=
  Crc.foldl_table polynomial (by decide) crcTable_entry 0xffffffff d

/-- The checksum of a section with its checksum. -/
theorem crc_sectionBytes (psi : TsPsi) (l : List UInt8) : crc (psi.sectionBytes l) = 0 := by
  rw [sectionBytes, crc_bitwise, crc_bitwise]
  exact Crc.bitwise_append (n := 4) polynomial rfl 0xffffffff (psi.body l)

/-! ## Streams -/

/-- On a stream without a buffer the padding never ends. -/
theorem pad_destruct (turns : Nat) (s : Bytestream) : pad turns s.destruct = none := by
  induction turns with
  | zero => rfl
  | succ turns ih =>
    have unaligned : ¬ (s.destruct.size + 4) % 188 = 0 := by
      rw [Bytestream.size_destruct]
      decide
    rw [pad, if_neg unaligned, Bytestream.write8, Bytestream.write_destruct, ih]

/-- A section is written to a stream with a buffer only. -/
theorem attached_of_packStream {psi : TsPsi} {s data s' : Bytestream} (packed : psi.packStream s data = some (1, s')) :
    s.attached = true := by
  by_contra detached
  have lost : ∀ as, s.write as = s.destruct := fun as => if_neg detached
  simp only [packStream] at packed
  split at packed
  · cases packed
  · simp only [Bytestream.write8, Bytestream.write16, Bytestream.write32, lost, Bytestream.write_destruct,
      pad_destruct, Option.map_none] at packed
    cases packed

/-- **The checksum is CRC-32/MPEG-2**, and over a section that is written, from its table identifier
to the end of its checksum, it is zero. -/
theorem crc_packStream {psi : TsPsi} {s data s' : Bytestream} (sound : s.Sound) (table : data.Sound)
    (packed : psi.packStream s data = some (1, s')) (d : List UInt8) :
    crc d = Crc.bitwise 0x04c11db7 0xffffffff d ∧
      ∃ written n, s'.store = s.store ++ written ++ List.replicate n 0xff ∧ written.head? = some psi.id ∧
        written.length = 8 + data.size + 4 ∧ crc written = 0 := by
  refine ⟨crc_bitwise d, ?_⟩
  have attached := attached_of_packStream packed
  have ordered := sound.ordered
  rw [(sound.buffered attached).2] at ordered
  obtain ⟨l, bytes⟩ : ∃ l, (data.bytestreamData.getD []).take data.size = l := ⟨_, rfl⟩
  have size : data.size = l.length := by rw [← bytes, table.length_rest]
  rw [sound.eq_reading attached, packStream_reading ordered psi size bytes] at packed
  split at packed
  · cases packed
  · cases packed
    refine ⟨psi.sectionBytes l, _, rfl, ?_, ?_, crc_sectionBytes psi l⟩
    · have byte : UInt8.ofNat psi.id.toNat = psi.id := UInt8.ofNat_toNat
      simp [sectionBytes, body, BigEndian.bytes, byte]
    · rw [length_sectionBytes, size]

/-- A section behind two bytes, one of which was read. -/
theorem crc_packStream_behind :
    crc [0x31] = Crc.bitwise 0x04c11db7 0xffffffff [0x31] ∧
      ∃ written n, (Bytestream.reading ([0x47, 0x00] ++ construct.sectionBytes [1, 2] ++
        List.replicate (padding (([0x47, 0x00] ++ construct.sectionBytes [1, 2]).length - 1)) 0xff) 1).store =
          [0x47, 0x00] ++ written ++ List.replicate n 0xff ∧ written.head? = some 0 ∧
        written.length = 8 + 2 + 4 ∧ crc written = 0 := by
  have sound : (Bytestream.reading [0x47, 0x00] 1).Sound := Bytestream.sound_reading (by decide)
  have table : (Bytestream.constructBuffer [1, 2]).Sound := Bytestream.sound_reading (k := 0) (Nat.zero_le _)
  exact crc_packStream sound table (packStream_reading (by decide) construct rfl rfl) [0x31]

end TsPsi
end Libts
