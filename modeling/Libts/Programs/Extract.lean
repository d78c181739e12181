import Libts.Programs.Remux
import Libts.Stream.Interleaving

/-!
# The extractor

`ts_extract` writes the payloads of one PID of a file, one after the other. A payload of no bytes ends
it with a failure, as `fwrite` has written no item then (`extractLoop_eq`). What it writes of a stream
that was saved is what was put into it (`extract_saved`), and other PIDs have no part in it: two files
with the same packets of each PID are extracted alike (`extract_interleaved`).
-/

namespace Libts
set_option autoImplicit false

open PosixFile TsPackets CArith

/-- `fwrite` of one item to an output that takes everything: how many items were written. An item of no bytes is none. -/
def fwrite (data out : List UInt8) : Nat × List UInt8 := (if data.length = 0 then 0 else 1, out ++ data)

/-- The loop of `extract`. -/
def extractLoop : List TsPes → List UInt8 → Nat × List UInt8
  | [], out => (0, out)
  | pes :: packets, out =>
    let (n, out) := fwrite pes.data out
    if n ≠ 1 then (1, out) else extractLoop packets out

/-- `main` of ts_extract, with the PID `strtoul` made of its argument: the exit status and what was written. -/
def extract [Compilation] (file : Option (List UInt8)) (io : Reads) (pid : Int) : Option (Nat × List UInt8) :=
  (TsStream.construct.load file io).map fun (n, ts) =>
    if n = -1 then (1, [])
    else match ts.lookup pid with
      | none => (1, [])
      | some s => extractLoop s.packets []

/-- The packets in front of the first without payload. -/
def filledFront (packets : List TsPes) : List TsPes := packets.takeWhile fun pes => !pes.data.isEmpty

/-- The payloads are written up to the first that is empty. -/
theorem extractLoop_eq (packets : List TsPes) (out : List UInt8) :
    extractLoop packets out =
      (if ∀ pes ∈ packets, pes.data ≠ [] then 0 else 1, out ++ (filledFront packets).flatMap TsPes.data) := by
  induction packets generalizing out with
  | nil => simp [extractLoop, filledFront]
  | cons pes packets ih =>
    rw [extractLoop, fwrite]
    by_cases empty : pes.data = []
    · have none : filledFront (pes :: packets) = [] := List.takeWhile_cons_of_neg (by simp [empty])
      have stops : ¬ ∀ q ∈ pes :: packets, q.data ≠ [] := fun all => all pes List.mem_cons_self empty
      rw [if_neg stops, none, empty]
      rfl
    · have first : filledFront (pes :: packets) = pes :: filledFront packets :=
        List.takeWhile_cons_of_pos (by simpa using empty)
      have filled : pes.data.length ≠ 0 := fun zero => empty (List.eq_nil_of_length_eq_zero zero)
      have same : (∀ q ∈ pes :: packets, q.data ≠ []) ↔ ∀ q ∈ packets, q.data ≠ [] := by
        rw [List.forall_mem_cons]
        exact and_iff_right empty
      simp only [if_neg filled, ih, first, List.flatMap_cons, List.append_assoc, same]
      rfl

/-- What is extracted of a stream. -/
def extracted (result : Int × TsStream) (pid : Int) : Nat × List UInt8 :=
  if result.1 = -1 then (1, [])
  else match result.2.lookup pid with
    | none => (1, [])
    | some s => extractLoop s.packets []

/-- The units of a file that is read to its end decide everything. -/
theorem extract_eq [Compilation] {content : List UInt8} {io : Reads} (complete : io.Complete content) {units : TsUnits}
    (read : TsUnits.decoded content = some units) (pid : Int) :
    extract (some content) io pid = some (extracted (TsStream.construct.unpack units) pid) := by
  obtain ⟨n, loaded⟩ := TsUnits.loads.returns content io complete units read
  have accepted := TsUnits.loads.decodes content io complete n units loaded
  rw [read] at accepted
  have given : ¬ n = -1 := by
    intro refused
    rw [if_pos refused] at accepted
    cases accepted
  rw [extract, TsStream.load, loaded, Option.map_some, Option.map_some]
  simp only [if_neg given]
  rfl

/-- **What was put into a stream is extracted from its file**: the payloads of a PID, as far as they were written,
up to the first that is empty. -/
theorem extract_saved [Compilation] {ts : TsStream} {io : Reads} (h : ts.Describable) (writable : ts.Writable)
    (complete : io.Complete ts.savedBytes) {s : TsStreamPes} (there : s ∈ ts.streams)
    (written : ∀ pes ∈ s.packets.takeWhile TsPes.ptsIndicator, pes.Encodable ∧ pes.data.length < 2 ^ 31 - 13) :
    extract (some ts.savedBytes) io s.pid =
      some (if ∀ pes ∈ s.packets.takeWhile TsPes.ptsIndicator, pes.data ≠ [] then 0 else 1,
        (filledFront (s.packets.takeWhile TsPes.ptsIndicator)).flatMap TsPes.data) := by
  have found : ts.reread.lookup s.pid = some s.reread :=
    FindOrInsert.find_own TsStreamPes.pid h.reread.distinct (List.mem_map_of_mem there)
  have accepted : ¬ (1 : Int) = -1 := by decide
  have datas (packets : List TsPes) : extractLoop (packets.map TsPes.kept) [] = extractLoop packets [] := by
    have same (packets : List TsPes) (out : List UInt8) :
        extractLoop (packets.map TsPes.kept) out = extractLoop packets out := by
      induction packets generalizing out with
      | nil => rfl
      | cons pes packets ih =>
        have data : pes.kept.data = pes.data := rfl
        simp only [List.map_cons, extractLoop, data, ih]
    exact same packets []
  rw [extract, h.load_savedBytes writable complete, Option.map_some]
  simp only [if_neg accepted, found, h.packets_reread writable.ok there written, datas, extractLoop_eq, List.nil_append]

section AtRunTime
attribute [local instance] Compilation.atRunTime

theorem extract_saved_two :
    extract (some TsStream.twoPackets.savedBytes) (byteByByte TsStream.twoPackets.savedBytes) 257 = some (0, [2]) := by
  have fields : ∀ pes ∈ TsStream.twoPackets.streams[1].packets.takeWhile TsPes.ptsIndicator,
      pes.streamId ≠ 0xbe ∧ pes.streamId ≠ 0xbf ∧ pes.pts.toNat < 2 ^ 33 ∧ pes.dts.toNat < 2 ^ 33 ∧
        (pes.ptsIndicator = false → pes.pts = 0) ∧ (pes.dtsIndicator = false → pes.dts = 0) ∧
        pes.data.length < 2 ^ 31 - 13 := by
    decide
  refine extract_saved TsStream.describable_twoPackets TsStream.writable_twoPackets (complete_byte_by_byte _)
    (s := TsStream.twoPackets.streams[1]) (by decide) fun pes member => ?_
  obtain ⟨padding, private2, pts, dts, noPts, noDts, few⟩ := fields pes member
  exact ⟨⟨padding, private2, pts, dts, noPts, noDts⟩, few⟩

end AtRunTime

/-- **Other PIDs have no part in it**: files whose packets agree PID by PID are extracted alike. -/
theorem extract_interleaved [Compilation] {a b : List UInt8} {io io' : Reads} (complete : io.Complete a)
    (complete' : io'.Complete b)
    {P Q : TsPackets} (readP : TsPackets.decoded a = some P) (readQ : TsPackets.decoded b = some Q)
    (same : ∀ pid : BitVec 13, P.list.filter (fun p => p.pid = pid) = Q.list.filter fun p => p.pid = pid) (pid : Int) :
    extract (some a) io pid = extract (some b) io' pid := by
  have units : TsStream.SameUnits (TsUnits.construct.unpack P).2 (TsUnits.construct.unpack Q).2 := by
    intro pid
    rw [TsUnits.unpack_filter, TsUnits.unpack_filter, same pid]
  have left : TsUnits.decoded a = some (TsUnits.construct.unpack P).2 := by rw [TsUnits.decoded, readP, Option.map_some]
  have right : TsUnits.decoded b = some (TsUnits.construct.unpack Q).2 := by rw [TsUnits.decoded, readQ, Option.map_some]
  rw [extract_eq complete left, extract_eq complete' right, units.unpack_eq]

/-- The packets of a PID are read back as if they had been written alone. -/
theorem filter_normal [Compilation] (packets : TsPackets) (pid : BitVec 13) :
    packets.normal.list.filter (fun p => p.pid = pid) =
      (numbered 0 (packets.list.filter (·.pid = pid))).map TsPacket.reread := by
  have own : (fun p : TsPacket => decide (p.pid = pid)) ∘ TsPacket.reread = fun p => decide (p.pid = pid) := rfl
  have start : counterOf [] pid.toNat = 0#32 := rfl
  rw [TsPackets.normal, recoded_eq, List.filter_map, own, filter_packed, start]
  rfl

/-- What agrees PID by PID when it is written does when it is read. -/
theorem filter_normal_congr [Compilation] {P Q : TsPackets}
    (same : ∀ pid : BitVec 13, P.list.filter (fun p => p.pid = pid) = Q.list.filter fun p => p.pid = pid)
    (pid : BitVec 13) :
    P.normal.list.filter (fun p => p.pid = pid) = Q.normal.list.filter fun p => p.pid = pid := by
  rw [filter_normal, filter_normal, same pid]

namespace TsStream

theorem encodable_stuffed {pid : BitVec 13} {start : Bool} {data : List UInt8} (few : data.length ≤ 183) :
    (stuffed pid start data).Encodable :=
  ⟨⟨rfl, rfl, rfl, rfl, fun _ => rfl⟩, ⟨Nat.le_succ_of_le few, fun _ => few⟩⟩

theorem encodable_program : ∀ p ∈ program.list, p.Encodable := by
  have short : ∀ p ∈ program.list,
      p = stuffed p.pid p.payloadUnitStartIndicator p.payloadData ∧ p.payloadData.length ≤ 183 := by decide
  intro p member
  obtain ⟨same, few⟩ := short p member
  rw [same]
  exact encodable_stuffed few

theorem fresh_program : program.Fresh := ⟨rfl, List.cons_ne_nil _ _, settled_packed encodable_program []⟩

theorem fresh_shuffled : shuffled.Fresh := by
  have subset : ∀ p ∈ shuffled.list, p ∈ program.list := by decide
  exact ⟨rfl, List.cons_ne_nil _ _, settled_packed (fun p member => encodable_program p (subset p member)) []⟩

end TsStream

section AtRunTime
attribute [local instance] Compilation.atRunTime

/-- The video, from its two parts. -/
theorem extract_program :
    extract (some TsStream.program.packedBytes) (byteByByte TsStream.program.packedBytes) 256 = some (0, [1, 3]) := by
  have read := TsPackets.restores.decoded _ _ TsStream.fresh_program rfl
  have units : TsUnits.decoded TsStream.program.packedBytes =
      some (TsUnits.construct.unpack TsStream.program.normal).2 := by
    rw [TsUnits.decoded, read, Option.map_some]
  rw [extract_eq (complete_byte_by_byte _) units]
  decide +kernel

theorem extract_interleaved_program :
    extract (some TsStream.program.packedBytes) (byteByByte TsStream.program.packedBytes) 256 =
        extract (some TsStream.shuffled.packedBytes) (byteByByte TsStream.shuffled.packedBytes) 256 ∧
      extract (some TsStream.shuffled.packedBytes) (byteByByte TsStream.shuffled.packedBytes) 256 = some (0, [1, 3]) := by
  have same := extract_interleaved (complete_byte_by_byte _) (complete_byte_by_byte _)
    (TsPackets.restores.decoded _ _ TsStream.fresh_program rfl) (TsPackets.restores.decoded _ _ TsStream.fresh_shuffled rfl)
    (filter_normal_congr TsStream.filter_shuffled) 256
  exact ⟨same, same.symm.trans extract_program⟩

end AtRunTime

end Libts
