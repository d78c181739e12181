import Libts.Psi.Psi

/-!
# The header of a section that is accepted

Where the decoders of the tables look in a unit: behind the pointer and the bytes it skips
is the section, eight bytes of header with the length of the section in front of its data.
A header is accepted when it is one, with as many bytes behind it as it announces
(`unpackStream_iff`).
-/

namespace Libts
set_option autoImplicit false

namespace TsPsi

/-- The unit behind the pointer. -/
def pointed (b : Buffer) : List UInt8 := b.drop (1 + (b.getD 0 0).toNat)

/-- The length in the header of a section. -/
def lengthIn (l : List UInt8) : Nat := readBits (BigEndian.value ((l.drop 1).take 2)) 16 6 10

/-- The data of a section, between its header and its checksum. -/
def dataIn (l : List UInt8) : List UInt8 := (l.drop 8).take (lengthIn l - 9)

/-- The pointer with the bytes it skips. -/
def pointerBytes (skipped : Block) : List UInt8 := UInt8.ofNat skipped.size :: skipped.data

/-- The bytes of a header, with the length it announces. -/
def headerBytes (psi : TsPsi) : List UInt8 :=
  BigEndian.bytes 1 psi.id.toNat ++
    BigEndian.bytes 2 (BitField.word [(1, 1), (0, 1), (3, 2), (0, 2), (psi.sectionLength.toNat, 10)]) ++
    BigEndian.bytes 2 psi.idExtension.toNat ++
    BigEndian.bytes 1 (BitField.word [(3, 2), (psi.version.toNat, 5), (psi.current.toNat, 1)]) ++
    BigEndian.bytes 1 psi.sectionNumber.toNat ++ BigEndian.bytes 1 psi.lastSectionNumber.toNat

theorem length_headerBytes (psi : TsPsi) : psi.headerBytes.length = 8 := by
  simp only [headerBytes, List.length_append, BigEndian.length_bytes]

/-- A header that announces a length is written as the encoder writes it. -/
theorem headerBytes_eq (psi : TsPsi) :
    psi.headerBytes = BigEndian.bytes 1 psi.id.toNat ++ BigEndian.bytes 2 (lengthWord (psi.sectionLength.toNat : Nat)) ++
      BigEndian.bytes 2 psi.idExtension.toNat ++ BigEndian.bytes 1 psi.versionByte ++
      BigEndian.bytes 1 psi.sectionNumber.toNat ++ BigEndian.bytes 1 psi.lastSectionNumber.toNat := by
  have small := psi.sectionLength.isLt
  rw [lengthWord_eq, versionByte_eq, CArith.uint64OfInt_of_lt (by omega), headerBytes]

theorem length_pointerBytes (skipped : Block) : (pointerBytes skipped).length = 1 + skipped.size := Nat.add_comm _ _

/-! ## What is in a section -/

section Sections

variable (psi : TsPsi) (rest : List UInt8)

theorem lengthIn_header : lengthIn (psi.headerBytes ++ rest) = psi.sectionLength.toNat := by
  have small : lengthWord (psi.sectionLength.toNat : Nat) < 256 ^ 2 := lengthWord_lt _
  rw [headerBytes_eq]
  simp only [lengthIn, List.append_assoc]
  rw [List.drop_left' (BigEndian.length_bytes 1 _), List.take_left' (BigEndian.length_bytes 2 _), BigEndian.value_bytes,
    Nat.mod_eq_of_lt small, length_lengthWord psi.sectionLength.isLt]

variable {psi} {l : List UInt8}

theorem dataIn_header (length : psi.sectionLength.toNat = l.length + 9) : dataIn (psi.headerBytes ++ (l ++ rest)) = l := by
  rw [dataIn, lengthIn_header, length, Nat.add_sub_cancel, List.drop_left' psi.length_headerBytes, List.take_left' rfl]

variable (psi)

/-- A section that was written, with what its header holds of the length. -/
theorem sectionBytes_eq :
    psi.sectionBytes l = { psi with sectionLength := BitVec.ofNat 10 (l.length + 9) }.headerBytes ++
      (l ++ BigEndian.bytes 4 (crc (psi.body l)).toNat) := by
  have length : (BitVec.ofNat 10 (l.length + 9)).toNat = (l.length + 9) % 2 ^ 10 := BitVec.toNat_ofNat _ _
  have word : lengthWord (CArith.intOfSize (l.length + 9)) = lengthWord (((l.length + 9) % 2 ^ 10 : Nat) : Int) := by
    have low := CArith.uint64OfInt_intOfSize_mod (l.length + 9)
    have none : BitField.word [] = 0 := rfl
    rw [lengthWord_eq, lengthWord_eq, CArith.uint64OfInt_of_lt (n := (l.length + 9) % 2 ^ 10) (by omega)]
    simp only [BitField.word_cons, BitField.width, none]
    omega
  rw [headerBytes_eq, length, sectionBytes]
  simp only [body, word, List.append_assoc]
  rfl

theorem dataIn_section (high : l.length + 9 < 2 ^ 10) : dataIn (psi.sectionBytes l ++ rest) = l := by
  rw [sectionBytes_eq psi, List.append_assoc, List.append_assoc]
  apply dataIn_header
  rw [BitVec.toNat_ofNat, Nat.mod_eq_of_lt high]

end Sections

theorem pointed_pointerBytes (skipped : Block) (rest : List UInt8) : pointed (pointerBytes skipped ++ rest) = rest := by
  have size : (UInt8.ofNat skipped.size).toNat = skipped.data.length := by
    rw [UInt8.toNat_ofNat']
    exact Nat.mod_eq_of_lt skipped.fits
  rw [pointed, pointerBytes, List.cons_append, List.getD_cons_zero, size, Nat.add_comm, List.drop_succ_cons,
    List.drop_left' rfl]

/-! ## Headers that are accepted -/

section Accepted

variable {s t : Bytestream} {l : List UInt8} {psi : TsPsi}

theorem pointerUnpack_iff (h : s.Holds l) :
    pointerUnpack s = (1, t) ↔ ∃ (skipped : Block) (rest : List UInt8), l = pointerBytes skipped ++ rest ∧
      t = s.skip (1 + skipped.size) := by
  constructor
  · intro accepted
    obtain rfl | filled := eq_or_ne l []
    · have ended : s.skip 1 = s.destruct := h.skip_short (by decide)
      simp only [pointerUnpack, Bytestream.read8, ended, Bytestream.destruct_skip, Bytestream.valid_destruct] at accepted
      cases accepted
    · obtain ⟨p, l, rfl⟩ := List.exists_cons_of_ne_nil filled
      have h1 := h.skip_cons
      have moved : (s.skip 1).skip p.toNat = t := by
        have rest := congrArg Prod.snd accepted
        simp only [pointerUnpack, h.read8] at rest
        exact rest
      by_cases enough : p.toNat ≤ l.length
      · have size : (Block.take l p).size = p.toNat := List.length_take_of_le enough
        refine ⟨Block.take l p, l.drop p.toNat, ?_, ?_⟩
        · rw [pointerBytes, size, UInt8.ofNat_toNat, List.cons_append]
          exact congrArg _ (List.take_append_drop _ _).symm
        · rw [size, ← moved, Bytestream.skip_skip]
      · have ended := h1.skip_short (not_le.mp enough)
        simp only [pointerUnpack, h.read8, ended, Bytestream.valid_destruct] at accepted
        cases accepted
  · rintro ⟨skipped, rest, rfl, rfl⟩
    have size : (UInt8.ofNat skipped.size).toNat = skipped.data.length := by
      rw [UInt8.toNat_ofNat']
      exact Nat.mod_eq_of_lt skipped.fits
    have h1 : (s.skip 1).Holds (skipped.data ++ rest) := h.skip_cons
    have moved := h1.skip_append rfl
    rw [pointerBytes, List.cons_append] at h
    simp only [pointerUnpack, h.read8, size]
    rw [if_pos moved.isValid, Bytestream.skip_skip]
    rfl

/-- A word that passes the checks on the length carries one. -/
theorem exists_lengthWord {v : Nat} (small : v < 2 ^ 16)
    (right : ¬ (readBits v 16 0 1 ≠ 0x01 ∨ readBits v 16 1 1 ≠ 0x00 ∨ readBits v 16 2 2 ≠ 0x03 ∨
      readBits v 16 4 2 ≠ 0x00)) :
    v = BitField.word [(1, 1), (0, 1), (3, 2), (0, 2), (readBits v 16 6 10, 10)] := by
  have first : readBits v 16 0 1 = v / 2 ^ 15 % 2 ^ 1 := readBits_div (by decide)
  have second : readBits v 16 1 1 = v / 2 ^ 14 % 2 ^ 1 := readBits_div (by decide)
  have third : readBits v 16 2 2 = v / 2 ^ 12 % 2 ^ 2 := readBits_div (by decide)
  have fourth : readBits v 16 4 2 = v / 2 ^ 10 % 2 ^ 2 := readBits_div (by decide)
  have fifth : readBits v 16 6 10 = v / 2 ^ 0 % 2 ^ 10 := readBits_div (by decide)
  have none : BitField.word [] = 0 := rfl
  simp only [not_or, not_not, first, second, third, fourth] at right
  simp only [fifth, BitField.word_cons, BitField.width, none]
  omega

theorem exists_versionByte {v : Nat} (small : v < 2 ^ 8) (right : ¬ readBits v 8 0 2 ≠ 0x03) :
    v = BitField.word [(3, 2), ((BitVec.ofNat 5 (readBits v 8 2 5)).toNat, 5), ((flag (readBits v 8 7 1)).toNat, 1)] := by
  have first : readBits v 8 0 2 = v / 2 ^ 6 % 2 ^ 2 := readBits_div (by decide)
  have second : readBits v 8 2 5 = v / 2 ^ 1 % 2 ^ 5 := readBits_div (by decide)
  have third : readBits v 8 7 1 = v / 2 ^ 0 % 2 ^ 1 := readBits_div (by decide)
  have none : BitField.word [] = 0 := rfl
  have bit : (flag (readBits v 8 7 1)).toNat = v % 2 := by
    rw [third, flag]
    obtain even | odd := Nat.mod_two_eq_zero_or_one v
    · simp [even]
    · simp [odd]
  rw [not_not, first] at right
  rw [bit, second]
  simp only [BitVec.toNat_ofNat, BitField.word_cons, BitField.width, none]
  omega

/-- The fields behind the length, whatever they are. -/
theorem unpackFields_iff {old : TsPsi} (h : s.Holds l) (enough : 5 ≤ l.length) :
    old.unpackFields s = (1, psi, t) ↔
      ∃ rest, l = BigEndian.bytes 2 psi.idExtension.toNat ++ (BigEndian.bytes 1 psi.versionByte ++
          (BigEndian.bytes 1 psi.sectionNumber.toNat ++ (BigEndian.bytes 1 psi.lastSectionNumber.toNat ++ rest))) ∧
        psi.id = old.id ∧ psi.sectionLength = old.sectionLength ∧ t = s.skip 5 := by
  constructor
  · intro accepted
    obtain ⟨extension, l, word, rfl⟩ := BigEndian.exists_bytes (n := 2) (l := l) (by omega)
    rw [List.length_append, BigEndian.length_bytes] at enough
    obtain ⟨v, l, small, rfl⟩ := BigEndian.exists_bytes (n := 1) (l := l) (by omega)
    rw [List.length_append, BigEndian.length_bytes] at enough
    obtain ⟨number, l, byte, rfl⟩ := BigEndian.exists_bytes (n := 1) (l := l) (by omega)
    rw [List.length_append, BigEndian.length_bytes] at enough
    obtain ⟨last, rest, byte', rfl⟩ := BigEndian.exists_bytes (n := 1) (l := l) (by omega)
    have h1 := h.skip_append (BigEndian.length_bytes 2 _)
    have h2 := h1.skip_append (BigEndian.length_bytes 1 _)
    have h3 := h2.skip_append (BigEndian.length_bytes 1 _)
    have h4 := h3.skip_append (BigEndian.length_bytes 1 _)
    have v' : v % 2 ^ 8 = v := Nat.mod_eq_of_lt small
    have extension' : extension % 2 ^ 16 = extension := Nat.mod_eq_of_lt word
    have number' : number % 2 ^ 8 = number := Nat.mod_eq_of_lt byte
    have last' : last % 2 ^ 8 = last := Nat.mod_eq_of_lt byte'
    simp only [unpackFields, h.read16_bytes, h1.read8_bytes, h2.read8_bytes, h3.read8_bytes, h4.isValid, if_true,
      v', extension', number', last'] at accepted
    split at accepted
    · cases accepted
    · rename_i right
      cases accepted
      refine ⟨rest, ?_, rfl, rfl, ?_⟩
      · have version := exists_versionByte small right
        simp only [versionByte_eq, ← version, UInt16.toNat_ofNat', UInt8.toNat_ofNat', extension', number', last']
      · simp only [Bytestream.skip_skip]
  · rintro ⟨rest, rfl, id, length, rfl⟩
    rw [unpackFields_bytes old h, ← id, ← length]

/-- The length, in a word `v` that was read in front of the fields. -/
theorem unpackLength_iff {old : TsPsi} {v : Nat} (h : s.Holds l) (small : v < 2 ^ 16) :
    old.unpackLength v s = (1, psi, t) ↔
      v = BitField.word [(1, 1), (0, 1), (3, 2), (0, 2), (psi.sectionLength.toNat, 10)] ∧
        9 ≤ psi.sectionLength.toNat ∧ psi.sectionLength.toNat ≤ l.length ∧
        { old with sectionLength := psi.sectionLength }.unpackFields s = (1, psi, t) := by
  constructor
  · intro accepted
    simp only [unpackLength] at accepted
    split at accepted
    · cases accepted
    · rename_i right
      split at accepted
      · cases accepted
      · rename_i low
        split at accepted
        · cases accepted
        · rename_i there
          have carried : (BitVec.ofNat 10 (readBits v 16 6 10)).toNat = readBits v 16 6 10 := by
            have field : readBits v 16 6 10 = v / 2 ^ 0 % 2 ^ 10 := readBits_div (by decide)
            rw [BitVec.toNat_ofNat, field, Nat.mod_mod]
          rw [h.sizeEq, carried] at there
          rw [carried] at low
          obtain ⟨-, -, -, same, -⟩ := (unpackFields_iff h (by omega)).1 accepted
          rw [same, carried]
          exact ⟨exists_lengthWord small right, by omega, by omega, accepted⟩
  · rintro ⟨word, low, enough, fields⟩
    have length := unpackLength_lengthWord old low psi.sectionLength.isLt s (by rw [h.sizeEq]; exact enough)
    rw [lengthWord_eq, CArith.uint64OfInt_of_lt (by omega), ← word, BitVec.ofNat_toNat, BitVec.setWidth_eq] at length
    rw [length, fields]

/-- **A header is accepted** exactly when it is one and the bytes it announces are there. -/
theorem unpackStream_iff (h : s.Holds l) (named : psi.id ≠ 0xff) :
    construct.unpackStream s = (1, psi, t) ↔
      ∃ rest, l = psi.headerBytes ++ rest ∧ 9 ≤ psi.sectionLength.toNat ∧ psi.sectionLength.toNat ≤ rest.length + 5 ∧
        t = s.skip 8 := by
  constructor
  · intro accepted
    by_cases three : 3 ≤ l.length
    · obtain ⟨id, l, small, rfl⟩ := BigEndian.exists_bytes (n := 1) (l := l) (by omega)
      rw [List.length_append, BigEndian.length_bytes] at three
      obtain ⟨v, l, small', rfl⟩ := BigEndian.exists_bytes (n := 2) (l := l) (by omega)
      have h1 := h.skip_append (BigEndian.length_bytes 1 _)
      have h2 := h1.skip_append (BigEndian.length_bytes 2 _)
      have id' : id % 2 ^ 8 = id := Nat.mod_eq_of_lt small
      have v' : v % 2 ^ 16 = v := Nat.mod_eq_of_lt small'
      simp only [unpackStream, h.read8_bytes, h1.read16_bytes, h2.isValid, id', v'] at accepted
      split at accepted
      · rename_i unnamed
        cases accepted
        exact absurd unnamed named
      · simp only [Bool.not_true, Bool.false_eq_true, if_false] at accepted
        obtain ⟨rfl, low, enough, fields⟩ := (unpackLength_iff h2 small').1 accepted
        obtain ⟨rest, rfl, same, -, rfl⟩ := (unpackFields_iff h2 (by omega)).1 fields
        refine ⟨rest, ?_, low, ?_, ?_⟩
        · simp only [headerBytes, same, UInt8.toNat_ofNat', id', versionByte_eq, List.append_assoc]
        · simp only [List.length_append, BigEndian.length_bytes] at enough
          omega
        · simp only [Bytestream.skip_skip]
    · have ended : s.skip (1 + 2) = s.destruct := h.skip_short (by omega)
      simp only [unpackStream, Bytestream.read8, Bytestream.read16, Bytestream.skip_skip, ended,
        Bytestream.valid_destruct, Bool.not_false, if_true] at accepted
      split at accepted
      · rename_i unnamed
        cases accepted
        exact absurd unnamed named
      · cases accepted
  · rintro ⟨rest, rfl, low, enough, rfl⟩
    rw [headerBytes] at h
    simp only [List.append_assoc] at h
    have h1 := h.skip_append (BigEndian.length_bytes 1 _)
    have h2 := h1.skip_append (BigEndian.length_bytes 2 _)
    have small := BitField.word_lt [(1, 1), (0, 1), (3, 2), (0, 2), (psi.sectionLength.toNat, 10)]
    have id' : psi.id.toNat % 2 ^ 8 = psi.id.toNat := Nat.mod_eq_of_lt psi.id.toNat_lt
    have fields : ({ construct with id := psi.id, sectionLength := psi.sectionLength } : TsPsi).unpackFields
        ((s.skip 1).skip 2) = (1, psi, ((s.skip 1).skip 2).skip 5) := by
      rw [← versionByte_eq] at h2
      exact unpackFields_bytes _ h2
    have length : ({ construct with id := psi.id } : TsPsi).unpackLength _ ((s.skip 1).skip 2) =
        (1, psi, ((s.skip 1).skip 2).skip 5) :=
      (unpackLength_iff h2 small).2 ⟨rfl, low, by
        simp only [List.length_append, BigEndian.length_bytes]
        omega, fields⟩
    have word : BitField.word [(1, 1), (0, 1), (3, 2), (0, 2), (psi.sectionLength.toNat, 10)] % 2 ^ 16 = _ :=
      Nat.mod_eq_of_lt small
    simp only [unpackStream, h.read8_bytes, h1.read16_bytes, id', UInt8.ofNat_toNat, if_neg named, word, h2.isValid,
      Bool.not_true, Bool.false_eq_true, if_false, length]
    simp only [Bytestream.skip_skip]

theorem constructStream_iff : constructStream s = (1, psi, t) ↔ construct.unpackStream s = (1, psi, t) := by
  constructor
  · intro accepted
    have result : (construct.unpackStream s).1 = 1 := congrArg Prod.fst accepted
    simp only [constructStream] at accepted
    rw [if_neg (by rw [result]; decide)] at accepted
    exact accepted
  · intro accepted
    rw [constructStream, accepted]
    rfl

/-- The pointer and the header of a unit that are accepted. -/
theorem start_iff (h : s.Holds l) (named : psi.id ≠ 0xff) :
    (∃ middle, pointerUnpack s = (1, middle) ∧ constructStream middle = (1, psi, t)) ↔
      ∃ (skipped : Block) (rest : List UInt8), l = pointerBytes skipped ++ (psi.headerBytes ++ rest) ∧
        9 ≤ psi.sectionLength.toNat ∧ psi.sectionLength.toNat ≤ rest.length + 5 ∧
        t = s.skip (1 + skipped.size + 8) := by
  constructor
  · rintro ⟨middle, pointer, header⟩
    obtain ⟨skipped, rest, rfl, rfl⟩ := (pointerUnpack_iff h).1 pointer
    have h1 := h.skip_append (length_pointerBytes skipped)
    obtain ⟨rest, rfl, low, enough, rfl⟩ := (unpackStream_iff h1 named).1 (constructStream_iff.1 header)
    exact ⟨skipped, rest, rfl, low, enough, s.skip_skip _ _⟩
  · rintro ⟨skipped, rest, rfl, low, enough, rfl⟩
    have h1 := h.skip_append (length_pointerBytes skipped)
    refine ⟨s.skip (1 + skipped.size), (pointerUnpack_iff h).2 ⟨skipped, _, rfl, rfl⟩, ?_⟩
    exact constructStream_iff.2 ((unpackStream_iff h1 named).2 ⟨rest, rfl, low, enough, (s.skip_skip _ _).symm⟩)

/-- What is left behind the pointer and the header. -/
theorem holds_behind_header {skipped : Block} {rest : List UInt8}
    (h : s.Holds (pointerBytes skipped ++ (psi.headerBytes ++ rest))) : (s.skip (1 + skipped.size + 8)).Holds rest := by
  rw [← List.append_assoc] at h
  apply h.skip_append
  rw [List.length_append, length_pointerBytes, length_headerBytes]

theorem id_eq_of_toNat {id : UInt8} (same : (psi.id.toNat : Int) = id.toNat) : psi.id = id :=
  UInt8.toNat_inj.mp (Int.ofNat.inj same)

end Accepted

/-! ## Results -/

theorem pointerUnpack_result (s : Bytestream) : (pointerUnpack s).1 = 0 ∨ (pointerUnpack s).1 = 1 := by
  simp only [pointerUnpack]
  split
  · exact Or.inr rfl
  · exact Or.inl rfl

theorem unpackFields_result (psi : TsPsi) (s : Bytestream) :
    (psi.unpackFields s).1 = -1 ∨ (psi.unpackFields s).1 = 0 ∨ (psi.unpackFields s).1 = 1 := by
  simp only [unpackFields]
  split
  · exact Or.inl rfl
  · split
    · exact Or.inr (Or.inr rfl)
    · exact Or.inr (Or.inl rfl)

theorem unpackStream_result (psi : TsPsi) (s : Bytestream) :
    (psi.unpackStream s).1 = -1 ∨ (psi.unpackStream s).1 = 0 ∨ (psi.unpackStream s).1 = 1 := by
  simp only [unpackStream]
  split
  · exact Or.inr (Or.inr rfl)
  · split
    · exact Or.inr (Or.inl rfl)
    · simp only [unpackLength]
      split
      · exact Or.inl rfl
      · split
        · exact Or.inl rfl
        · split
          · exact Or.inr (Or.inl rfl)
          · exact unpackFields_result _ _

theorem constructStream_result (s : Bytestream) :
    (constructStream s).1 = -1 ∨ (constructStream s).1 = 0 ∨ (constructStream s).1 = 1 :=
  unpackStream_result construct s

/-- How far the decoders of the tables get in front of their data. -/
theorem start_cases (s : Bytestream) :
    (pointerUnpack s).1 = 0 ∨ ∃ middle, pointerUnpack s = (1, middle) ∧
      ((constructStream middle).1 = 0 ∨ (constructStream middle).1 = -1 ∨
        ∃ psi t, constructStream middle = (1, psi, t)) := by
  obtain missing | there := pointerUnpack_result s
  · exact Or.inl missing
  · refine Or.inr ⟨(pointerUnpack s).2, Prod.ext there rfl, ?_⟩
    obtain refused | missing | there := constructStream_result (pointerUnpack s).2
    · exact Or.inr (Or.inl refused)
    · exact Or.inl missing
    · exact Or.inr (Or.inr ⟨_, _, Prod.ext there rfl⟩)

theorem id_unpackFields (psi : TsPsi) (s : Bytestream) : (psi.unpackFields s).2.1.id = psi.id := by
  simp only [unpackFields]
  split <;> rfl

theorem id_unpackLength (psi : TsPsi) (v : Nat) (s : Bytestream) : (psi.unpackLength v s).2.1.id = psi.id := by
  simp only [unpackLength]
  split
  · rfl
  · split
    · rfl
    · split
      · rfl
      · exact id_unpackFields _ s

/-- Where the decoder finds stuffing it reads no length. -/
theorem unpackStream_stuffing {s : Bytestream} (stuffing : (construct.unpackStream s).2.1.id = 0xff) :
    (construct.unpackStream s).2.1.sectionLength = 0 := by
  by_cases unnamed : UInt8.ofNat s.read8.1 = 0xff
  · simp only [unpackStream, if_pos unnamed]
    rfl
  · simp only [unpackStream, if_neg unnamed] at stuffing ⊢
    split at stuffing
    · exact absurd stuffing unnamed
    · rw [id_unpackLength] at stuffing
      exact absurd stuffing unnamed

theorem constructStream_stuffing {s t : Bytestream} {n : Int} {psi : TsPsi} (read : constructStream s = (n, psi, t))
    (stuffing : psi.id = 0xff) : psi.sectionLength = 0 := by
  simp only [constructStream] at read
  split at read
  · cases read
    rfl
  · cases read
    exact unpackStream_stuffing stuffing

end TsPsi

end Libts
