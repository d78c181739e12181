import Libts.Base.PosixRead
import Libts.Packet.Recoding
import Libts.Packet.Save

/-!
# Loading a packet list

`ts_packets_buffer_load` reads blocks until one is empty or fails; `ts_packets_load` decodes what
was read, or returns -1 with nothing decoded. A file that was read to its end is decoded as a
whole, wherever the reads cut it (`load_eq`).
-/

namespace Libts
set_option autoImplicit false

theorem Bytestream.size_skip_le (s : Bytestream) (n : Nat) : (s.skip n).size ≤ s.size := by
  rw [size_skip]
  split <;> omega

namespace TsPackets

open CArith PosixFile

/-- What the system does with the calls of one load: `open`, and one reply for each `read`. -/
structure Reads where
  opened : Bool
  replies : List Reply
deriving Repr, DecidableEq

/-- `sizeof block`. -/
def blockSize : Nat := 1048576

/-- The loop of `bufferLoad`. `none` is a loop still running when the replies end. -/
def loadLoop : List Reply → List UInt8 → Buffer → Option (Int × Buffer)
  | [], _, _ => none
  | reply :: replies, fd, b =>
    let (n, block, fd) := readBlock blockSize fd reply
    if n ≤ 0 then some (n, b) else loadLoop replies fd (bufferInsert b b.length block)

/-- `ts_packets_buffer_load`. A file that does not exist cannot be opened. -/
def bufferLoad (b : Buffer) (file : Option (List UInt8)) (io : Reads) : Option (Int × Buffer) :=
  match file with
  | none => some (-1, b)
  | some content => if io.opened then loadLoop io.replies content b else some (-1, b)

/-- `ts_packets_load`. `none` is a read loop that does not end, or the `abort` of the packet decoder. -/
def load [Compilation] (packets : TsPackets) (file : Option (List UInt8)) (io : Reads) : Option (Int × TsPackets) :=
  (bufferLoad [] file io).bind fun (e, b) =>
    if e = -1 then some (-1, packets)
    else (packets.unpack (Bytestream.constructBuffer b)).map fun (n, packets, _) => (n, packets)

/-- How the reads over a file end. -/
def Reads.ending (io : Reads) (file : Option (List UInt8)) : Option Ending :=
  match file with
  | none => some .failed
  | some content => if io.opened then PosixFile.ending blockSize io.replies content.length else some .failed

/-- The file is read to its end. -/
def Reads.Complete (io : Reads) (content : List UInt8) : Prop := io.ending (some content) = some .reached

instance (io : Reads) (content : List UInt8) : Decidable (io.Complete content) := inferInstanceAs (Decidable (_ = _))

/-- The whole effect of the loop. -/
theorem loadLoop_eq (replies : List Reply) (fd : List UInt8) (b : Buffer) :
    loadLoop replies fd b = (PosixFile.ending blockSize replies fd.length).map fun
      | .reached => (0, b ++ fd)
      | .failed => (-1, b ++ fd.take (fetched blockSize replies)) := by
  induction replies generalizing fd b with
  | nil => rfl
  | cons reply replies ih =>
    cases reply with
    | fails =>
      rw [ending_fails, fetched_fails, List.take_zero, List.append_nil]
      rfl
    | gives count positive =>
      have atEnd := readBlock_eq_zero_iff (show 0 < blockSize by decide) positive fd
      have natural : 0 ≤ (readBlock blockSize fd (.gives count positive)).1 := Int.natCast_nonneg _
      rw [loadLoop, PosixFile.ending]
      by_cases empty : fd = []
      · have zero : fd.length = 0 := List.length_eq_zero_iff.2 empty
        simp only [atEnd.2 empty, Int.le_refl, if_true, if_pos zero, Option.map_some]
        rw [empty, List.append_nil]
      · have goes : ¬ (readBlock blockSize fd (.gives count positive)).1 ≤ 0 := by
          intro stops
          exact empty (atEnd.1 (by omega))
        have length : fd.length ≠ 0 := fun zero => empty (List.eq_nil_of_length_eq_zero zero)
        simp only [if_neg goes, if_neg length, ih, bufferInsert, List.take_length, List.drop_length, List.append_nil,
          fetched_gives]
        simp only [readBlock, List.length_drop, List.append_assoc, List.take_append_drop, ← List.take_add]

section Effect

variable {io : Reads} {content : List UInt8}

theorem bufferLoad_eq (b : Buffer) (file : Option (List UInt8)) (io : Reads) :
    bufferLoad b file io = (io.ending file).map fun
      | .reached => (0, b ++ file.getD [])
      | .failed => (-1, b ++ if io.opened then (file.getD []).take (fetched blockSize io.replies) else []) := by
  cases file with
  | none => simp [bufferLoad, Reads.ending]
  | some content =>
    rw [bufferLoad, Reads.ending]
    cases opened : io.opened with
    | false => simp
    | true =>
      simp only [if_true, loadLoop_eq, Option.getD_some]

/-- **What a load does** depends on how its reads end and not on where they cut the file: at its end the
whole file is decoded, and after a failure nothing is. -/
theorem load_eq [Compilation] (packets : TsPackets) (file : Option (List UInt8)) (io : Reads) :
    packets.load file io = (io.ending file).bind fun
      | .reached => (packets.unpack (Bytestream.constructBuffer (file.getD []))).map fun r => (r.1, r.2.1)
      | .failed => some (-1, packets) := by
  rw [load, bufferLoad_eq]
  cases io.ending file with
  | none => rfl
  | some e =>
    cases e with
    | reached =>
      have read : ¬ (0 : Int) = -1 := by decide
      simp only [Option.map_some, Option.bind_some, if_neg read, List.nil_append]
    | failed =>
      simp only [Option.map_some, Option.bind_some, if_true]

theorem load_complete [Compilation] (packets : TsPackets) (complete : io.Complete content) :
    packets.load (some content) io =
      (packets.unpack (Bytestream.constructBuffer content)).map fun r => (r.1, r.2.1) := by
  have read : ¬ (0 : Int) = -1 := by decide
  rw [load, bufferLoad_eq, show io.ending (some content) = some .reached from complete]
  simp only [Option.map_some, Option.bind_some, if_neg read, List.nil_append, Option.getD_some]

/-- Reads that do not fail get to the end of a file that is shorter than they are many. -/
theorem Reads.complete_of_working (opened : io.opened = true) (working : .fails ∉ io.replies)
    (enough : content.length < io.replies.length) : io.Complete content := by
  rw [Complete, Reads.ending, if_pos opened]
  exact ending_eq_reached (by decide) working enough

/-- The payload of a packet that was read was taken from the stream. -/
theorem payload_unpackPayload {p q : TsPacket} {size : Nat} {s t : Bytestream} {n : Int}
    (read : p.unpackPayload size s = some (n, q, t)) (positive : 0 < n) (empty : p.payloadData = []) :
    t.size + q.payloadData.length ≤ s.size := by
  unfold TsPacket.unpackPayload at read
  split at read
  · simp only [Bytestream.read] at read
    split at read
    · cases read
    · cases read
      have valid : (s.skip (sizeSub 188 (sizeSub size s.size))).valid = true := by
        by_contra short
        rw [Bytestream.result, if_neg short] at positive
        omega
      obtain ⟨enough, whole⟩ := Bytestream.valid_skip.1 valid
      have few := s.length_peek_le (sizeSub 188 (sizeSub size s.size))
      rw [Bytestream.size_skip, if_neg (Bool.eq_false_iff.mp (Bytestream.short_eq_false.2 ⟨enough, whole⟩))]
      change s.size - _ + (s.peek _).length ≤ s.size
      omega
  · cases read
    rw [empty]
    exact Nat.le_refl _

theorem payload_unpackBody [Compilation] {p q : TsPacket} {size : Nat} {s t : Bytestream} {n : Int}
    (read : p.unpackBody size s = some (n, q, t)) (positive : 0 < n) (empty : p.payloadData = []) :
    t.size + q.payloadData.length ≤ s.size := by
  simp only [TsPacket.unpackBody] at read
  by_cases field : p.hasAdaptationField = true
  · rw [if_pos field] at read
    split at read
    · cases read
      omega
    · obtain ⟨k, -, behind⟩ := p.adaptationField.unpack_later s
      have rest : (p.adaptationField.unpack s).2.2.size ≤ s.size := by
        rw [behind]
        exact s.size_skip_le k
      exact Nat.le_trans (payload_unpackPayload read positive empty) rest
  · rw [if_neg field] at read
    exact payload_unpackPayload read positive empty

theorem payload_unpack [Compilation] {q : TsPacket} {s t : Bytestream} {n : Int}
    (read : TsPacket.construct.unpack s = some (n, q, t)) (positive : 0 < n) :
    t.size + q.payloadData.length ≤ s.size := by
  simp only [TsPacket.unpack] at read
  split at read
  · cases read
    omega
  · exact Nat.le_trans (payload_unpackBody read positive rfl) (s.size_skip_le 4)

/-- **No byte is read into two payloads.** -/
theorem payload_unpackLoop [Compilation] {s t : Bytestream} {count n : Int} {list ps : List TsPacket}
    (read : unpackLoop s count list = some (n, ps, t)) :
    (ps.flatMap TsPacket.payloadData).length ≤ (list.flatMap TsPacket.payloadData).length + s.size := by
  fun_induction unpackLoop s count list with
  | case1 s count list empty =>
    cases read
    omega
  | case2 s count list nonempty aborted => cases read
  | case3 s count list nonempty n packet t _ failed =>
    cases read
    omega
  | case4 s count list nonempty n packet t taken failed shorter ih =>
    have payload := payload_unpack taken (by omega)
    have rest := ih read
    rw [List.flatMap_append, List.length_append, List.flatMap_singleton] at rest
    omega

/-- What a save leaves in the file when the calls leave the packed bytes there. -/
theorem save_left {packets after : TsPackets} {file left : Option (List UInt8)} {out : Outcomes} {n : Int}
    (saved : packets.save file out = some (n, after, left)) (lands : out.Lands file packets.packedBytes) :
    n = packets.list.length ∧ after.list = packed packets.counters packets.list ∧ left = some packets.packedBytes := by
  rw [save_eq] at saved
  obtain ⟨⟨e, kept⟩, stored, same⟩ := Option.map_eq_some_iff.1 saved
  cases same
  refine ⟨rfl, ?_, (bufferSave_lands_iff _ _ _).2 lands _ _ stored⟩
  rw [pack_eq packets rfl]

theorem packedBytes_eq (packets : TsPackets) :
    packets.packedBytes = ((packed packets.counters packets.list).map TsPacket.bytes).flatten := by
  rw [packedBytes, pack_eq packets rfl, store_foldl_write rfl]
  rfl

end Effect

/-- What a load makes of a file that holds settled packets. -/
theorem load_settled [Compilation] {ps : List TsPacket} {io : Reads} (nonempty : ps ≠ [])
    (settled : ∀ p ∈ ps, p.Settled)
    (complete : io.Complete (ps.map TsPacket.bytes).flatten) :
    construct.load (some (ps.map TsPacket.bytes).flatten) io =
      some ((ps.length : Int), { list := ps.map TsPacket.reread }) := by
  obtain ⟨t, read⟩ := unpack_settled nonempty settled
  rw [load_complete _ complete, read, map_wirePacket settled]
  rfl

/-- One `write` that takes everything. -/
def atOnce (b : List UInt8) : Outcomes := ⟨true, [.takes b.length]⟩

/-- Reads of one byte each. -/
def byteByByte (b : List UInt8) : Reads := ⟨true, List.replicate (b.length + 1) (.gives 1 Nat.one_pos)⟩

/-- A new file holds what one `write` took. -/
theorem stored_at_once (b : List UInt8) : (atOnce b).Lands none b ∧ bufferSave b none (atOnce b) = some (0, some b) := by
  have whole : granted [.takes b.length] = b.length := Nat.add_zero _
  have written : ¬ Unfinished [.takes b.length] b.length := by
    rintro ⟨few, -⟩
    omega
  have lands : (atOnce b).Lands none b := by
    rw [Outcomes.lands_iff_of_taken rfl (Nat.le_of_eq whole.symm)]
    exact Nat.zero_le _
  have all : (atOnce b).written b.length = b.length := by
    rw [atOnce, Outcomes.written, whole, Nat.min_self]
  refine ⟨lands, ?_⟩
  rw [bufferSave_eq rfl, if_neg (show ¬ Unfinished (atOnce b).answers b.length from written), all, if_neg (Nat.lt_irrefl _), List.take_length]
  simp

theorem complete_byte_by_byte (b : List UInt8) : (byteByByte b).Complete b := by
  apply Reads.complete_of_working
  · rfl
  · intro failing
    cases List.eq_of_mem_replicate failing
  · rw [byteByByte, List.length_replicate]
    omega

/-- **A packet list comes back from a file**: when the calls of the save leave the packed bytes there and the reads reach
their end, in whatever pieces, the packets are those that were saved, each with its counter and the settled control, with
nothing changed but their clocks. -/
theorem load_saved_packets [Compilation] {packets after : TsPackets} {file left : Option (List UInt8)}
    {out : Outcomes} {io : Reads} {n : Int} (nonempty : packets.list ≠ []) (encodable : ∀ p ∈ packets.list, p.Encodable)
    (saved : packets.save file out = some (n, after, left)) (lands : out.Lands file packets.packedBytes)
    (complete : io.Complete packets.packedBytes) :
    n = packets.list.length ∧ after.list = packed packets.counters packets.list ∧
      construct.load left io = some (n, { list := (packed packets.counters packets.list).map TsPacket.reread }) := by
  obtain ⟨count, list, rfl⟩ := save_left saved lands
  have filled : packed packets.counters packets.list ≠ [] := by
    rw [← List.length_pos_iff, length_packed]
    exact List.length_pos_iff.mpr nonempty
  refine ⟨count, list, ?_⟩
  rw [packedBytes_eq] at complete ⊢
  rw [load_settled filled (settled_packed encodable packets.counters) complete, length_packed, count]

section AtRunTime
attribute [local instance] Compilation.atRunTime

/-- Written in two pieces over a shorter file, and read in three. -/
theorem load_saved_packets_one :
    ∃ after, onePacket.save (some [0x47]) ⟨true, [.takes 100, .takes 88]⟩ = some (1, after, some onePacket.packedBytes) ∧
      (1 : Int) = onePacket.list.length ∧ after.list = packed [] onePacket.list ∧
      construct.load (some onePacket.packedBytes)
          ⟨true, [.gives 100 (by decide), .gives 100 (by decide), .gives 1 (by decide)]⟩ =
        some (1, { list := (packed [] onePacket.list).map TsPacket.reread }) := by
  have length := length_packedBytes_onePacket
  have lands : Outcomes.Lands ⟨true, [.takes 100, .takes 88]⟩ (some [0x47]) onePacket.packedBytes := by
    rw [Outcomes.lands_iff_of_taken rfl (by rw [length]; decide), length]
    decide
  have written : ¬ Unfinished [.takes 100, .takes 88] onePacket.packedBytes.length := by
    rintro ⟨few, -⟩
    rw [length] at few
    exact absurd few (by decide)
  have saved : onePacket.save (some [0x47]) ⟨true, [.takes 100, .takes 88]⟩ =
      some (1, (onePacket.pack (Bytestream.constructBuffer [])).2.1, some onePacket.packedBytes) := by
    have opened : Outcomes.opened ⟨true, [.takes 100, .takes 88]⟩ = true := rfl
    have stored := bufferSave_eq opened onePacket.packedBytes (some [0x47])
    rw [if_neg written] at stored
    have left := (bufferSave_lands_iff _ _ _).2 lands _ _ stored
    rw [save_eq, stored, Option.map_some, left]
    rfl
  have complete : Reads.Complete ⟨true, [.gives 100 (by decide), .gives 100 (by decide), .gives 1 (by decide)]⟩
      onePacket.packedBytes := by
    rw [Reads.Complete, Reads.ending, length]
    rfl
  refine ⟨_, saved, load_saved_packets (by decide) ?_ saved lands complete⟩
  intro p member
  rw [List.mem_singleton.mp member]
  exact ⟨⟨rfl, rfl, rfl, rfl, fun _ => rfl⟩, by decide⟩

end AtRunTime

end TsPackets
end Libts
