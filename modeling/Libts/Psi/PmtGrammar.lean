import Libts.Psi.Header
import Libts.Psi.Pmt

/-!
# The grammar of the program map

The data of a section as the decoder takes it: descriptor loops of any number of
descriptors, of which it keeps the first and steps over the rest. A section is accepted
exactly when it is made of such loops (`unpackSection_iff`), and a unit when it is a pointer,
a header, such a section and as many bytes behind it as a checksum has (`unpackBuffer_iff`).
-/

namespace Libts
set_option autoImplicit false

open CArith

/-- Bytes that are empty or start with a whole descriptor. -/
def StartsWhole : List UInt8 → Prop
  | [] => True
  | [_] => False
  | _ :: size :: rest => size.toNat ≤ rest.length

/-- A descriptor loop that is accepted. -/
@[ext] structure TsPmtLoop where
  bytes : List UInt8
  short : bytes.length < 2 ^ 10
  whole : StartsWhole bytes

/-- A stream as it lies in the section. -/
@[ext] structure TsPmtEntry where
  streamType : UInt8
  elementaryPid : BitVec 13
  loop : TsPmtLoop

/-- The data of a section. -/
@[ext] structure TsPmtData where
  pcrPid : BitVec 13
  loop : TsPmtLoop
  entries : List TsPmtEntry

/-- What is kept of a loop, its first descriptor. -/
def firstDescriptor : List UInt8 → TsPmtDescriptor
  | tag :: size :: rest => { tag := tag, data := Block.take rest size }
  | _ => {}

namespace TsPmtLoop

def descriptor (loop : TsPmtLoop) : TsPmtDescriptor := firstDescriptor loop.bytes

/-- The word in front of a loop. -/
def word (pid : BitVec 13) (size : Nat) : Nat := BitField.word [(7, 3), (pid.toNat, 13), (15, 4), (0, 2), (size, 10)]

/-- The loop with its word. -/
def infoBytes (loop : TsPmtLoop) (pid : BitVec 13) : List UInt8 :=
  BigEndian.bytes 4 (word pid loop.bytes.length) ++ loop.bytes

end TsPmtLoop

namespace TsPmtEntry

def bytes (e : TsPmtEntry) : List UInt8 := e.streamType :: e.loop.infoBytes e.elementaryPid

def decoded (e : TsPmtEntry) : TsPmtStream :=
  { streamType := e.streamType, elementaryPid := e.elementaryPid, descriptor := e.loop.descriptor }

end TsPmtEntry

namespace TsPmtData

def bytes (d : TsPmtData) : List UInt8 := d.loop.infoBytes d.pcrPid ++ d.entries.flatMap TsPmtEntry.bytes

/-- The map after the data was read into it. -/
def decoded (d : TsPmtData) (pmt : TsPmt) : TsPmt :=
  { pmt with pcrPid := d.pcrPid, descriptor := d.loop.descriptor, streams := pmt.streams ++ d.entries.map TsPmtEntry.decoded }

end TsPmtData

/-- A unit with a program map: the bytes the pointer skips, the header, the data, and what is
behind the data, from the checksum on. -/
structure TsPmtUnit where
  skipped : Block
  psi : TsPsi
  data : TsPmtData
  behind : List UInt8
  id : psi.id = 0x02
  length : psi.sectionLength.toNat = data.bytes.length + 9
  checksum : 4 ≤ behind.length

namespace TsPmtUnit

def bytes (u : TsPmtUnit) : List UInt8 :=
  TsPsi.pointerBytes u.skipped ++ (u.psi.headerBytes ++ (u.data.bytes ++ u.behind))

/-- The map that is read. -/
def decoded (u : TsPmtUnit) : TsPmt :=
  u.data.decoded { id := 2, idExtension := u.psi.idExtension.toNat, version := u.psi.version.toNat }

end TsPmtUnit

/-! ## Words -/

namespace TsPmtLoop

theorem word_lt (pid : BitVec 13) (size : Nat) : word pid size < 2 ^ 32 := BitField.word_lt _

theorem length_infoBytes (loop : TsPmtLoop) (pid : BitVec 13) : (loop.infoBytes pid).length = 4 + loop.bytes.length := by
  rw [infoBytes, List.length_append, BigEndian.length_bytes]

section Fields

variable (pid : BitVec 13) {size : Nat} (short : size < 2 ^ 10)

theorem wrongInfo_word : TsPmtDescriptor.wrongInfo (uint64OfInt (intOfSize (word pid size))) = false := by
  have small := word_lt pid size
  have first : readBits (word pid size) 32 0 3 = 7 := readBits_word [] _ [_, _, _, _] (by decide) rfl
  have second : readBits (word pid size) 32 16 4 = 15 := readBits_word [_, _] _ [_, _] (by decide) rfl
  have third : readBits (word pid size) 32 20 2 = 0 := readBits_word [_, _, _] _ [_] (by decide) rfl
  rw [TsPmtDescriptor.wrongInfo, readBits_int small (by decide) (by decide), readBits_int small (by decide) (by decide),
    readBits_int small (by decide) (by decide), first, second, third]
  rfl

theorem pid_word : BitVec.ofNat 13 (readBits (uint64OfInt (intOfSize (word pid size))) 32 3 13) = pid := by
  have field : readBits (word pid size) 32 3 13 = pid.toNat % 2 ^ 13 := readBits_word [_] _ [_, _, _] (by decide) rfl
  rw [readBits_int (word_lt pid size) (by decide) (by decide), field, Nat.mod_eq_of_lt pid.isLt, BitVec.ofNat_toNat,
    BitVec.setWidth_eq]

include short in
theorem length_word : readBits (uint64OfInt (intOfSize (word pid size))) 32 22 10 = size := by
  have field : readBits (word pid size) 32 22 10 = size % 2 ^ 10 := readBits_word [_, _, _, _] _ [] (by decide) rfl
  rw [readBits_int (word_lt pid size) (by decide) (by decide), field, Nat.mod_eq_of_lt short]

end Fields

/-- A word that is not wrong is one in front of a loop. -/
theorem exists_word {v : Nat} (small : v < 2 ^ 32) (right : TsPmtDescriptor.wrongInfo (uint64OfInt (intOfSize v)) = false) :
    ∃ pid size, size < 2 ^ 10 ∧ v = word pid size := by
  have three : readBits v 32 0 3 = v / 2 ^ 29 % 2 ^ 3 := readBits_div (by decide)
  have four : readBits v 32 16 4 = v / 2 ^ 12 % 2 ^ 4 := readBits_div (by decide)
  have two : readBits v 32 20 2 = v / 2 ^ 10 % 2 ^ 2 := readBits_div (by decide)
  have none : BitField.word [] = 0 := rfl
  rw [TsPmtDescriptor.wrongInfo, readBits_int small (by decide) (by decide), readBits_int small (by decide) (by decide),
    readBits_int small (by decide) (by decide)] at right
  simp only [Bool.or_eq_false_iff, bne_eq_false_iff_eq, three, four, two] at right
  refine ⟨BitVec.ofNat 13 (v / 2 ^ 16), v % 2 ^ 10, Nat.mod_lt v (by decide), ?_⟩
  simp only [word, BitField.word_cons, BitField.width, none, BitVec.toNat_ofNat]
  omega

/-- Loops are told apart by their bytes. -/
theorem infoBytes_append_inj {loop loop' : TsPmtLoop} {pid pid' : BitVec 13} {rest rest' : List UInt8}
    (same : loop.infoBytes pid ++ rest = loop'.infoBytes pid' ++ rest') : loop = loop' ∧ pid = pid' ∧ rest = rest' := by
  rw [infoBytes, infoBytes, List.append_assoc, List.append_assoc] at same
  obtain ⟨front, behind⟩ := List.append_inj same (by rw [BigEndian.length_bytes, BigEndian.length_bytes])
  have words : word pid loop.bytes.length = word pid' loop'.bytes.length := by
    have small : word pid loop.bytes.length < 256 ^ 4 := word_lt _ _
    have small' : word pid' loop'.bytes.length < 256 ^ 4 := word_lt _ _
    rw [BigEndian.bytes_eq_iff, Nat.mod_eq_of_lt small, Nat.mod_eq_of_lt small'] at front
    exact front
  have lengths : loop.bytes.length = loop'.bytes.length := by
    rw [← length_word pid loop.short, words, length_word pid' loop'.short]
  obtain ⟨bytes, rests⟩ := List.append_inj behind lengths
  refine ⟨TsPmtLoop.ext bytes, ?_, rests⟩
  rw [← pid_word pid, words, pid_word pid']

end TsPmtLoop

namespace TsPmtEntry

theorem bytes_append_inj {e e' : TsPmtEntry} {rest rest' : List UInt8}
    (same : e.bytes ++ rest = e'.bytes ++ rest') : e = e' ∧ rest = rest' := by
  rw [bytes, bytes, List.cons_append, List.cons_append, List.cons.injEq] at same
  obtain ⟨type, behind⟩ := same
  obtain ⟨loop, pid, rests⟩ := TsPmtLoop.infoBytes_append_inj behind
  exact ⟨TsPmtEntry.ext type pid loop, rests⟩

/-- Entries in front of the bytes of others are the first of those. -/
theorem eq_take_of_append {es es' : List TsPmtEntry} {rest : List UInt8}
    (same : es.flatMap bytes ++ rest = es'.flatMap bytes) : es = es'.take es.length := by
  induction es generalizing es' with
  | nil => rfl
  | cons e es ih =>
    cases es' with
    | nil => cases same
    | cons e' es' =>
      rw [List.flatMap_cons, List.flatMap_cons, List.append_assoc] at same
      obtain ⟨first, behind⟩ := bytes_append_inj same
      rw [List.length_cons, List.take_succ_cons, first, ← ih behind]

theorem flatMap_bytes_injective : Function.Injective fun es : List TsPmtEntry => es.flatMap bytes := by
  intro es es' same
  induction es generalizing es' with
  | nil =>
    cases es' with
    | nil => rfl
    | cons e' es' => cases same
  | cons e es ih =>
    cases es' with
    | nil => cases same
    | cons e' es' =>
      simp only [List.flatMap_cons] at same
      obtain ⟨first, rest⟩ := bytes_append_inj same
      rw [first, ih rest]

end TsPmtEntry

/-- The data of a section is what its bytes say. -/
theorem TsPmtData.bytes_injective : Function.Injective TsPmtData.bytes := by
  intro d d' same
  obtain ⟨loop, pid, entries⟩ := TsPmtLoop.infoBytes_append_inj same
  exact TsPmtData.ext pid loop (TsPmtEntry.flatMap_bytes_injective entries)

/-- Data in front of the bytes of others has the first of their entries. -/
theorem TsPmtData.eq_take_of_append {d e : TsPmtData} {rest : List UInt8} (same : d.bytes ++ rest = e.bytes) :
    d = { e with entries := e.entries.take d.entries.length } := by
  rw [bytes, bytes, List.append_assoc] at same
  obtain ⟨loop, pid, entries⟩ := TsPmtLoop.infoBytes_append_inj same
  exact TsPmtData.ext pid loop (TsPmtEntry.eq_take_of_append entries)

/-! ## Loops -/

namespace TsPmtDescriptor

variable {s : Bytestream} {l rest : List UInt8} {len : Nat}

/-- A loop is read as its first descriptor. -/
theorem unpack_loop (loop : TsPmtLoop) (filled : loop.bytes ≠ []) (h : s.Holds (loop.bytes ++ rest)) :
    construct.unpack s loop.bytes.length = (1, loop.descriptor, s.skip loop.bytes.length) := by
  obtain ⟨bytes, short, whole⟩ := loop
  match bytes, whole with
  | [], _ => exact absurd rfl filled
  | tag :: size :: more, whole =>
    have fits : size.toNat ≤ more.length := whole
    have h1 := h.skip_cons
    have h2 : ((s.skip 1).skip 1).Holds (more ++ rest) := h1.skip_cons
    have ended : (s.skip (more.length + 2)).Holds rest := by
      have whole := h.skip_append rfl
      exact whole
    have length := h.sizeEq
    rw [List.length_append, List.length_cons, List.length_cons] at length
    have inside : ¬ (more.length + 2 < 2 ∨ more.length + 2 > s.size) := by omega
    have long : ¬ size.toNat + 2 > more.length + 2 := by omega
    have block := h2.readBlock (n := size) (by rw [List.length_append]; omega)
    have data : Block.take (more ++ rest) size = Block.take more size := by
      apply Block.ext
      exact List.take_append_of_le_length fits
    have moved : (((s.skip 1).skip 1).skip size.toNat).skip (more.length + 2 - size.toNat - 2) = s.skip (more.length + 2) := by
      rw [Bytestream.skip_skip, Bytestream.skip_skip, Bytestream.skip_skip]
      congr 1
      omega
    rw [data] at block
    simp only [unpack, List.length_cons, if_neg inside, Bytestream.Holds.read8 h, Bytestream.Holds.read8 h1, if_neg long,
      UInt8.ofNat_toNat, block, moved, ended.result]
    rfl

/-- A loop that is accepted starts with a whole descriptor. -/
theorem startsWhole_of_unpack (h : s.Holds l) (accepted : (construct.unpack s len).1 ≠ -1) :
    len ≤ l.length ∧ StartsWhole (l.take len) := by
  simp only [unpack, h.sizeEq] at accepted
  split at accepted
  · exact absurd rfl accepted
  · rename_i inside
    obtain ⟨two, enough⟩ := not_or.mp inside
    obtain ⟨tag, l, rfl⟩ := List.exists_cons_of_length_pos (show 0 < l.length by omega)
    rw [List.length_cons] at enough
    obtain ⟨size, more, rfl⟩ := List.exists_cons_of_length_pos (show 0 < l.length by omega)
    rw [List.length_cons] at enough
    have h1 := h.skip_cons
    have count : len = (len - 2) + 2 := by omega
    simp only [h.read8, h1.read8] at accepted
    refine ⟨by simp only [List.length_cons]; omega, ?_⟩
    rw [count, List.take_succ_cons, List.take_succ_cons]
    split at accepted
    · exact absurd rfl accepted
    · rename_i fits
      have whole : size.toNat ≤ (more.take (len - 2)).length := by
        rw [List.length_take]
        omega
      exact whole

section Info

variable {loop : TsPmtLoop} {pid : BitVec 13} (h : s.Holds (loop.infoBytes pid ++ rest))
include h

theorem read32_infoBytes : s.read32 = (TsPmtLoop.word pid loop.bytes.length, s.skip 4) := by
  rw [TsPmtLoop.infoBytes, List.append_assoc] at h
  rw [h.read32_bytes, Nat.mod_eq_of_lt (TsPmtLoop.word_lt _ _)]

theorem unpackInfo_infoBytes :
    construct.unpackInfo (uint64OfInt (intOfSize (TsPmtLoop.word pid loop.bytes.length))) (s.skip 4) =
      (1, loop.descriptor, s.skip (loop.infoBytes pid).length) := by
  rw [TsPmtLoop.length_infoBytes]
  rw [TsPmtLoop.infoBytes, List.append_assoc] at h
  have h4 := h.skip_append (BigEndian.length_bytes 4 _)
  rw [unpackInfo, TsPmtLoop.length_word pid loop.short]
  by_cases empty : loop.bytes = []
  · have none : loop.descriptor = construct := by
      rw [TsPmtLoop.descriptor, empty]
      rfl
    rw [none, empty]
    rfl
  · have filled : loop.bytes.length ≠ 0 := fun zero => empty (List.eq_nil_of_length_eq_zero zero)
    simp only [if_pos filled]
    rw [unpack_loop loop empty h4, Bytestream.skip_skip]

end Info

/-- A loop that is accepted, in front of what is left. -/
theorem exists_infoBytes (h : s.Holds l) (right : wrongInfo (uint64OfInt (intOfSize s.read32.1)) = false)
    (accepted : (construct.unpackInfo (uint64OfInt (intOfSize s.read32.1)) (s.skip 4)).1 ≠ -1) :
    ∃ (loop : TsPmtLoop) (pid : BitVec 13) (rest : List UInt8), l = loop.infoBytes pid ++ rest := by
  have four : 4 ≤ l.length := by
    by_contra few
    have zero : s.read32.1 = 0 := by
      have short : s.short 4 = true := Bytestream.short_iff.2 (Or.inl (by rw [h.sizeEq]; omega))
      rw [Bytestream.read32, Bytestream.peek, if_pos short, BigEndian.value_replicate_zero]
    rw [zero] at right
    exact absurd right (by decide)
  have value : s.read32.1 = BigEndian.value (l.take 4) := by rw [Bytestream.read32, h.peek four]
  have length : (l.take 4).length = 4 := List.length_take_of_le four
  have small : s.read32.1 < 2 ^ 32 := by
    have bound := BigEndian.value_lt (l.take 4)
    rw [length, ← value] at bound
    exact bound
  obtain ⟨pid, size, short, same⟩ := TsPmtLoop.exists_word small right
  have front : l.take 4 = BigEndian.bytes 4 (TsPmtLoop.word pid size) := by
    have back := BigEndian.bytes_value (l.take 4)
    rw [length, ← value, same] at back
    exact back.symm
  have inside : size ≤ (l.drop 4).length ∧ StartsWhole ((l.drop 4).take size) := by
    rw [same, unpackInfo, TsPmtLoop.length_word pid short] at accepted
    split at accepted
    · exact startsWhole_of_unpack (h.skip four) accepted
    · rename_i zero
      rw [not_not.mp zero]
      exact ⟨Nat.zero_le _, trivial⟩
  obtain ⟨enough, whole⟩ := inside
  have count : ((l.drop 4).take size).length = size := List.length_take_of_le enough
  refine ⟨⟨(l.drop 4).take size, by rw [count]; exact short, whole⟩, pid, (l.drop 4).drop size, ?_⟩
  rw [TsPmtLoop.infoBytes]
  simp only [count]
  rw [← front, List.append_assoc, List.take_append_drop, List.take_append_drop]

end TsPmtDescriptor

/-! ## Sections -/

namespace TsPmt

variable {s : Bytestream} {l rest : List UInt8}

/-- One stream in front of the rest. -/
theorem unpackStreams_entry (pmt : TsPmt) (e : TsPmtEntry) (h : s.Holds (e.bytes ++ rest)) :
    pmt.unpackStreams s = { pmt with streams := pmt.streams ++ [e.decoded] }.unpackStreams (s.skip e.bytes.length) := by
  have filled : s.size ≠ 0 := by
    rw [h.sizeEq, TsPmtEntry.bytes, List.cons_append, List.length_cons]
    exact Nat.succ_ne_zero _
  have h1 : (s.skip 1).Holds (e.loop.infoBytes e.elementaryPid ++ rest) := h.skip_cons
  have type : UInt8.ofNat s.read8.1 = e.streamType := by rw [h.read8, UInt8.ofNat_toNat]
  have moved : s.skip e.bytes.length = (s.skip 1).skip (e.loop.infoBytes e.elementaryPid).length := by
    rw [TsPmtEntry.bytes, List.length_cons, Bytestream.skip_skip]
    congr 1
    omega
  have accepted : ¬ (1 : Int) = -1 := by decide
  rw [unpackStreams, dif_neg filled, moved]
  simp only [TsPmtDescriptor.read32_infoBytes h1, TsPmtLoop.wrongInfo_word, TsPmtDescriptor.unpackInfo_infoBytes h1,
    if_neg accepted, Bool.false_eq_true, if_false, type, TsPmtLoop.pid_word]
  rfl

/-- The loop reads all streams. -/
theorem unpackStreams_entries (es : List TsPmtEntry) (pmt : TsPmt) (h : s.Holds (es.flatMap TsPmtEntry.bytes)) :
    ∃ t, pmt.unpackStreams s = (1, { pmt with streams := pmt.streams ++ es.map TsPmtEntry.decoded }, t) ∧
      t.valid = true := by
  induction es generalizing pmt s with
  | nil =>
    refine ⟨s, ?_, h.isValid⟩
    have empty : s.size = 0 := h.sizeEq
    rw [unpackStreams, dif_pos empty, List.map_nil, List.append_nil]
  | cons e es ih =>
    rw [List.flatMap_cons] at h
    obtain ⟨t, run, valid⟩ := ih { pmt with streams := pmt.streams ++ [e.decoded] } (h.skip_append rfl)
    refine ⟨t, ?_, valid⟩
    rw [unpackStreams_entry pmt e h, run, List.append_assoc]
    rfl

/-- A stream that is accepted, in front of what is left. -/
theorem exists_entry {pmt : TsPmt} (h : s.Holds l) (filled : l ≠ []) (accepted : (pmt.unpackStreams s).1 ≠ -1) :
    ∃ (e : TsPmtEntry) (rest : List UInt8), l = e.bytes ++ rest := by
  obtain ⟨type, l, rfl⟩ := List.exists_cons_of_ne_nil filled
  have h1 := h.skip_cons
  have size : s.size ≠ 0 := by
    rw [h.sizeEq]
    exact Nat.succ_ne_zero _
  rw [unpackStreams, dif_neg size] at accepted
  simp only at accepted
  split at accepted
  · exact absurd rfl accepted
  · rename_i right
    split at accepted
    · exact absurd rfl accepted
    · rename_i taken
      obtain ⟨loop, pid, rest, same⟩ := TsPmtDescriptor.exists_infoBytes h1 (Bool.eq_false_iff.mpr right) taken
      refine ⟨⟨type, pid, loop⟩, rest, ?_⟩
      rw [same]
      rfl

theorem exists_entries {pmt : TsPmt} (h : s.Holds l) (accepted : (pmt.unpackStreams s).1 ≠ -1) :
    ∃ es : List TsPmtEntry, l = es.flatMap TsPmtEntry.bytes := by
  induction left : l.length using Nat.strong_induction_on generalizing l s pmt with
  | _ n ih =>
    subst left
    obtain rfl | filled := eq_or_ne l []
    · exact ⟨[], rfl⟩
    · obtain ⟨e, rest, rfl⟩ := exists_entry h filled accepted
      rw [unpackStreams_entry pmt e h] at accepted
      have shorter : rest.length < (e.bytes ++ rest).length := by
        rw [List.length_append, TsPmtEntry.bytes, List.length_cons]
        omega
      obtain ⟨es, rfl⟩ := ih _ shorter (h.skip_append rfl) accepted rfl
      exact ⟨e :: es, List.flatMap_cons.symm⟩

/-- The data of a section is read, and then the table identifier is checked. -/
theorem unpackSection_data (pmt : TsPmt) (d : TsPmtData) (fresh : pmt.descriptor = TsPmtDescriptor.construct)
    (h : s.Holds d.bytes) :
    pmt.unpackSection s = (if pmt.id = 0x02 then 1 else -1, d.decoded pmt) := by
  rw [TsPmtData.bytes] at h
  have accepted : ¬ (1 : Int) = -1 := by decide
  obtain ⟨t, run, valid⟩ := unpackStreams_entries d.entries
    { pmt with pcrPid := d.pcrPid, descriptor := d.loop.descriptor } (h.skip_append rfl)
  simp only [unpackSection, TsPmtDescriptor.read32_infoBytes h, TsPmtLoop.wrongInfo_word, fresh,
    TsPmtDescriptor.unpackInfo_infoBytes h, if_neg accepted, Bool.false_eq_true, if_false, TsPmtLoop.pid_word, run, valid]
  by_cases own : pmt.id = 0x02
  · rw [if_pos own, if_neg (by simp [own])]
    rfl
  · rw [if_neg own, if_pos (Or.inr own)]
    rfl

theorem exists_data {pmt : TsPmt} (fresh : pmt.descriptor = TsPmtDescriptor.construct) (h : s.Holds l)
    (accepted : (pmt.unpackSection s).1 ≠ -1) : ∃ d : TsPmtData, l = d.bytes := by
  simp only [unpackSection, fresh] at accepted
  split at accepted
  · exact absurd rfl accepted
  · rename_i right
    split at accepted
    · exact absurd rfl accepted
    · rename_i taken
      obtain ⟨loop, pid, rest, rfl⟩ := TsPmtDescriptor.exists_infoBytes h (Bool.eq_false_iff.mpr right) taken
      have moved := TsPmtDescriptor.unpackInfo_infoBytes h
      rw [TsPmtDescriptor.read32_infoBytes h] at accepted
      simp only [moved] at accepted
      split at accepted
      · exact absurd rfl accepted
      · rename_i streams
        obtain ⟨es, rfl⟩ := exists_entries (h.skip_append rfl) streams
        exact ⟨⟨pid, loop, es⟩, rfl⟩

/-- **A section is accepted** exactly when it has the table identifier of a program map and
is made of whole loops. -/
theorem unpackSection_iff {pmt q : TsPmt} (fresh : pmt.descriptor = TsPmtDescriptor.construct) (h : s.Holds l) :
    pmt.unpackSection s = (1, q) ↔ pmt.id = 0x02 ∧ ∃ d : TsPmtData, l = d.bytes ∧ q = d.decoded pmt := by
  constructor
  · intro accepted
    have taken : (pmt.unpackSection s).1 ≠ -1 := by
      rw [accepted]
      exact (by decide : (1 : Int) ≠ -1)
    obtain ⟨d, rfl⟩ := exists_data fresh h taken
    rw [unpackSection_data pmt d fresh h] at accepted taken
    have own : pmt.id = 0x02 := by
      by_contra other
      rw [if_neg other] at taken
      exact taken rfl
    exact ⟨own, d, rfl, (congrArg Prod.snd accepted).symm⟩
  · rintro ⟨own, d, rfl, rfl⟩
    rw [unpackSection_data pmt d fresh h, if_pos own]

/-! ## Units -/

/-- The section behind a header that was read, in a stream of its own. -/
theorem unpackStream_start {middle t : Bytestream} {psi : TsPsi} (pmt : TsPmt) (pointer : TsPsi.pointerUnpack s = (1, middle))
    (header : TsPsi.constructStream middle = (1, psi, t)) (low : 9 ≤ psi.sectionLength.toNat)
    (there : psi.sectionLength.toNat ≤ t.size + 5) :
    pmt.unpackStream s =
      let start := { pmt with id := psi.id.toNat, idExtension := psi.idExtension.toNat, version := psi.version.toNat }
      let read := start.unpackSection (Bytestream.construct t.bytestreamData (psi.sectionLength.toNat - 9))
      (read.1, read.2, t) := by
  have accepted : ¬ (1 : Int) ≤ 0 := by decide
  have inside : ¬ (psi.sectionLength.toNat < 9 ∨ t.size + 5 < psi.sectionLength.toNat) := by omega
  simp only [unpackStream, pointer, header, if_neg accepted, if_neg inside]

/-- A unit that is accepted has a header with a length. -/
theorem exists_start {pmt : TsPmt} {t : Bytestream} (accepted : construct.unpackStream s = (1, pmt, t)) :
    ∃ middle psi, TsPsi.pointerUnpack s = (1, middle) ∧ TsPsi.constructStream middle = (1, psi, t) ∧ psi.id ≠ 0xff ∧
      9 ≤ psi.sectionLength.toNat ∧ psi.sectionLength.toNat ≤ t.size + 5 := by
  have result : (construct.unpackStream s).1 = 1 := by rw [accepted]
  have pass : ¬ (1 : Int) ≤ 0 := by decide
  obtain missing | ⟨middle, pointer, missing | refused | ⟨psi, behind, header⟩⟩ := TsPsi.start_cases s
  · simp only [unpackStream, missing] at result
    cases result
  · simp only [unpackStream, pointer, if_neg pass, missing] at result
    cases result
  · simp only [unpackStream, pointer, if_neg pass, refused] at result
    cases result
  · simp only [unpackStream, pointer, header, if_neg pass] at accepted
    split at accepted
    · cases accepted
    · rename_i inside
      obtain ⟨low, there⟩ := not_or.mp inside
      have same : behind = t := congrArg (fun read => read.2.2) accepted
      subst same
      refine ⟨middle, psi, pointer, header, ?_, by omega, by omega⟩
      intro stuffing
      rw [TsPsi.constructStream_stuffing header stuffing] at low
      exact low (by decide)

/-- What is accepted is a unit. -/
theorem exists_of_unpackStream {pmt : TsPmt} {t : Bytestream} (h : s.Holds l)
    (accepted : construct.unpackStream s = (1, pmt, t)) : ∃ u : TsPmtUnit, l = u.bytes ∧ pmt = u.decoded := by
  obtain ⟨middle, psi, pointer, header, named, low, there⟩ := exists_start accepted
  rw [unpackStream_start construct pointer header low there] at accepted
  obtain ⟨skipped, rest, rfl, -, enough, rfl⟩ := (TsPsi.start_iff h named).1 ⟨middle, pointer, header⟩
  have behind := TsPsi.holds_behind_header h
  have section' := behind.construct (n := psi.sectionLength.toNat - 9) (by omega)
  obtain ⟨result, value⟩ := Prod.mk.inj accepted
  obtain ⟨own, d, bytes, decoded⟩ := (unpackSection_iff (q := pmt) rfl section').1
    (Prod.ext result (congrArg Prod.fst value))
  have id : psi.id = 0x02 := TsPsi.id_eq_of_toNat own
  have length : d.bytes.length = psi.sectionLength.toNat - 9 := by
    rw [← bytes, List.length_take]
    omega
  have whole : rest = d.bytes ++ rest.drop (psi.sectionLength.toNat - 9) := by rw [← bytes, List.take_append_drop]
  refine ⟨⟨skipped, psi, d, rest.drop (psi.sectionLength.toNat - 9), id, by omega, ?_⟩, ?_, ?_⟩
  · rw [List.length_drop]
    omega
  · exact congrArg (fun l => TsPsi.pointerBytes skipped ++ (psi.headerBytes ++ l)) whole
  · rw [decoded, id]
    rfl

/-- Every unit is accepted. -/
theorem exists_unpackStream_unit (u : TsPmtUnit) (h : s.Holds u.bytes) :
    ∃ t, construct.unpackStream s = (1, u.decoded, t) := by
  obtain ⟨skipped, psi, d, behind, id, length, checksum⟩ := u
  have named : psi.id ≠ 0xff := by
    rw [id]
    decide
  have whole : s.Holds (TsPsi.pointerBytes skipped ++ (psi.headerBytes ++ (d.bytes ++ behind))) := h
  have size : (d.bytes ++ behind).length = d.bytes.length + behind.length := List.length_append
  obtain ⟨middle, pointer, header⟩ := (TsPsi.start_iff whole named).2
    ⟨skipped, d.bytes ++ behind, rfl, by omega, by omega, rfl⟩
  have rest := TsPsi.holds_behind_header whole
  have section' := rest.construct (n := psi.sectionLength.toNat - 9) (by omega)
  rw [List.take_left' (show d.bytes.length = psi.sectionLength.toNat - 9 by omega)] at section'
  refine ⟨s.skip (1 + skipped.size + 8), ?_⟩
  rw [unpackStream_start construct pointer header (by omega) (by rw [rest.sizeEq]; omega)]
  have read : ({ id := 2, idExtension := psi.idExtension.toNat, version := psi.version.toNat } : TsPmt).unpackSection _ =
      (1, _) := (unpackSection_iff rfl section').2 ⟨rfl, d, rfl, rfl⟩
  have start : ({ construct with
      id := psi.id.toNat, idExtension := psi.idExtension.toNat, version := psi.version.toNat } : TsPmt) =
      { id := 2, idExtension := psi.idExtension.toNat, version := psi.version.toNat } := by
    rw [id]
    rfl
  simp only [start, read]
  rfl

theorem unpackStream_iff {pmt : TsPmt} (h : s.Holds l) :
    (∃ t, construct.unpackStream s = (1, pmt, t)) ↔ ∃ u : TsPmtUnit, l = u.bytes ∧ pmt = u.decoded := by
  constructor
  · rintro ⟨t, accepted⟩
    exact exists_of_unpackStream h accepted
  · rintro ⟨u, rfl, rfl⟩
    exact exists_unpackStream_unit u h

theorem exists_unit {b : Buffer} {pmt : TsPmt} (accepted : construct.unpackBuffer b = (1, pmt)) :
    ∃ u : TsPmtUnit, b = u.bytes ∧ pmt = u.decoded := by
  have filled : b ≠ [] := by
    rintro rfl
    have refused : (construct.unpackBuffer []).1 = 0 := by decide
    rw [accepted] at refused
    cases refused
  have read : (construct.unpackStream (Bytestream.constructBuffer b)).1 = 1 := congrArg Prod.fst accepted
  have value : (construct.unpackStream (Bytestream.constructBuffer b)).2.1 = pmt := congrArg Prod.snd accepted
  apply (unpackStream_iff (Bytestream.holds_constructBuffer filled)).1
  refine ⟨(construct.unpackStream (Bytestream.constructBuffer b)).2.2, ?_⟩
  rw [← value, ← read]

theorem unpackBuffer_unit (u : TsPmtUnit) : construct.unpackBuffer u.bytes = (1, u.decoded) := by
  have filled : u.bytes ≠ [] := List.cons_ne_nil _ _
  obtain ⟨t, read⟩ := (unpackStream_iff (Bytestream.holds_constructBuffer filled)).2 ⟨u, rfl, rfl⟩
  rw [unpackBuffer, read]

/-- The data of a unit that is accepted. -/
theorem unpackBuffer_accepted {b : Buffer} {pmt : TsPmt} (accepted : construct.unpackBuffer b = (1, pmt)) :
    ∃ (d : TsPmtData) (start : TsPmt), TsPsi.dataIn (TsPsi.pointed b) = d.bytes ∧
      d.bytes.length + 9 = TsPsi.lengthIn (TsPsi.pointed b) ∧ start.streams = [] ∧ pmt = d.decoded start := by
  obtain ⟨u, rfl, rfl⟩ := exists_unit accepted
  rw [TsPmtUnit.bytes, TsPsi.pointed_pointerBytes, TsPsi.lengthIn_header, TsPsi.dataIn_header _ u.length, u.length]
  exact ⟨u.data, _, rfl, rfl, rfl, rfl⟩

/-- **A unit is accepted** exactly when it is made of a pointer, the header of a program map,
whole loops up to the length in the header, and at least a checksum. What is read of it are
its PIDs, its types and the first descriptors of its loops. -/
theorem unpackBuffer_iff {b : Buffer} {pmt : TsPmt} :
    construct.unpackBuffer b = (1, pmt) ↔ ∃ u : TsPmtUnit, b = u.bytes ∧ pmt = u.decoded := by
  constructor
  · exact exists_unit
  · rintro ⟨u, rfl, rfl⟩
    exact unpackBuffer_unit u

end TsPmt

end Libts
