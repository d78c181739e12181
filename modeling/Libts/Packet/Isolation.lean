import Libts.Packet.Continuity

/-!
# Packets of one PID among others

All PIDs share one table of counters and one buffer. A packet takes the counter of its PID,
which only packets of that PID change, so the blocks of a PID are those of a run with its
packets alone (`blocks_filter`). The table has one entry for each PID of the packets
(`mem_map_counted`), and it counts the payload bits of the packets as they were given
(`counterOf_counted`).
-/

namespace Libts
set_option autoImplicit false

namespace TsPackets
open TsPacket

/-- The blocks of a run from the counters, one for each packet. -/
def blocks (counters : List TsPacketsCounter) (ps : List TsPacket) : List (List UInt8) :=
  (packed counters ps).map TsPacket.bytes

/-- How many packets of a PID were given with a payload bit. -/
def payloads (pid : Int) (ps : List TsPacket) : Nat := ps.countP fun p => p.pid.toNat = pid ∧ p.hasPayload = true

/-! ## Blocks -/

/-- The length of a packet does not depend on its counter. -/
theorem length_bytes_counter (p : TsPacket) (c : BitVec 4) :
    ({ p with continuityCounter := c } : TsPacket).normalised.bytes.length = p.normalised.bytes.length := by
  simp only [normalised_eq, TsPacket.bytes, List.length_append, BigEndian.length_bytes]
  rfl

theorem width_blocks {width : Nat} (counters : List TsPacketsCounter) {ps : List TsPacket}
    (same : ∀ p ∈ ps, p.normalised.bytes.length = width) : ∀ block ∈ blocks counters ps, block.length = width := by
  induction ps generalizing counters with
  | nil => exact fun _ none => absurd none List.not_mem_nil
  | cons p ps ih =>
    intro block member
    obtain rfl | behind := List.mem_cons.mp member
    · rw [length_bytes_counter]
      exact same p List.mem_cons_self
    · exact ih _ (fun q there => same q (List.mem_cons_of_mem p there)) block behind

theorem map_pid_packed (counters : List TsPacketsCounter) (ps : List TsPacket) :
    (packed counters ps).map TsPacket.pid = ps.map TsPacket.pid := by
  induction ps generalizing counters with
  | nil => rfl
  | cons p ps ih =>
    rw [packed, List.map_cons, List.map_cons, ih, normalised_eq]

theorem length_blocks (counters : List TsPacketsCounter) (ps : List TsPacket) :
    (blocks counters ps).length = ps.length := by
  rw [blocks, List.length_map, length_packed]

/-- A block has the PID of its packet. -/
theorem map_pid_blocks (counters : List TsPacketsCounter) (ps : List TsPacket) :
    (blocks counters ps).map (fun block => (wireHeader block).pid) = ps.map TsPacket.pid := by
  rw [← map_pid_packed counters ps, blocks, List.map_map]
  simp only [Function.comp_def, (wireHeader_emitted _).1]

/-- The blocks of a PID are those of its packets. -/
theorem blocks_filter (pid : BitVec 13) (ps : List TsPacket) :
    (blocks [] ps).filter (fun block => (wireHeader block).pid = pid) = blocks [] (ps.filter (·.pid = pid)) := by
  have own : ∀ qs : List TsPacket, ((qs.map TsPacket.bytes).filter fun block => (wireHeader block).pid = pid) =
      (qs.filter (·.pid = pid)).map TsPacket.bytes := by
    intro qs
    rw [List.filter_map]
    simp only [Function.comp_def, (wireHeader_emitted _).1]
  have alone : (packed [] (ps.filter (·.pid = pid))).filter (·.pid = pid) = packed [] (ps.filter (·.pid = pid)) := by
    rw [List.filter_eq_self]
    intro q member
    have pids := List.mem_map_of_mem (f := TsPacket.pid) member
    rw [map_pid_packed] at pids
    obtain ⟨p, there, same⟩ := List.mem_map.mp pids
    rw [← same]
    exact (List.mem_filter.mp there).2
  rw [blocks, own, blocks, ← alone, filter_packed, filter_packed, List.filter_filter]
  simp

/-! ## Counters -/

/-- The counter of a PID counts its packets with a payload bit. -/
theorem counterOf_counted (counters : List TsPacketsCounter) (ps : List TsPacket) (pid : Int) :
    counterOf (counted counters ps) pid = counterOf counters pid + BitVec.ofNat 32 (payloads pid ps) := by
  induction ps generalizing counters with
  | nil => exact (BitVec.add_zero _).symm
  | cons p ps ih =>
    have one : payloads pid (p :: ps) = (if pid = p.pid.toNat ∧ p.hasPayload = true then 1 else 0) + payloads pid ps := by
      rw [payloads, List.countP_cons, Nat.add_comm]
      simp only [eq_comm (a := pid), decide_eq_true_eq]
      rfl
    calc counterOf (counted counters (p :: ps)) pid
        = counterOf (counted (countPacket counters p) ps) pid := rfl
      _ = counterOf counters pid + (if pid = p.pid.toNat ∧ p.hasPayload = true then 1 else 0) +
            BitVec.ofNat 32 (payloads pid ps) := by rw [ih, counterOf_countPacket]
      _ = counterOf counters pid + BitVec.ofNat 32 (payloads pid (p :: ps)) := by
        rw [one, BitVec.ofNat_add, BitVec.add_assoc]
        split <;> rfl

/-- The PIDs of the table are those of the packets. -/
theorem mem_map_counted (counters : List TsPacketsCounter) (ps : List TsPacket) (pid : Int) :
    pid ∈ (counted counters ps).map TsPacketsCounter.pid ↔
      pid ∈ counters.map TsPacketsCounter.pid ∨ ∃ p ∈ ps, (p.pid.toNat : Int) = pid := by
  induction ps generalizing counters with
  | nil => simp [counted]
  | cons p ps ih =>
    have one : pid ∈ (countPacket counters p).map TsPacketsCounter.pid ↔
        pid ∈ counters.map TsPacketsCounter.pid ∨ pid = p.pid.toNat :=
      FindOrInsert.mem_map_update (fun _ => rfl) (pid_counting p) pid counters
    calc pid ∈ (counted counters (p :: ps)).map TsPacketsCounter.pid
        ↔ pid ∈ (countPacket counters p).map TsPacketsCounter.pid ∨ ∃ q ∈ ps, (q.pid.toNat : Int) = pid := ih _
      _ ↔ pid ∈ counters.map TsPacketsCounter.pid ∨ ∃ q ∈ p :: ps, (q.pid.toNat : Int) = pid := by
        rw [one, or_assoc, eq_comm (a := pid)]
        simp only [List.mem_cons, exists_eq_or_imp]

theorem nodup_countPacket {counters : List TsPacketsCounter} (p : TsPacket)
    (distinct : (counters.map TsPacketsCounter.pid).Nodup) :
    ((countPacket counters p).map TsPacketsCounter.pid).Nodup :=
  FindOrInsert.nodup_update (fun _ => rfl) (pid_counting p) distinct

/-- In a table that started empty a PID has at most one entry. -/
theorem nodup_counted (ps : List TsPacket) : ((counted [] ps).map TsPacketsCounter.pid).Nodup := by
  have kept : ∀ counters : List TsPacketsCounter, (counters.map TsPacketsCounter.pid).Nodup →
      ((counted counters ps).map TsPacketsCounter.pid).Nodup := by
    induction ps with
    | nil => exact fun _ distinct => distinct
    | cons p ps ih => exact fun counters distinct => ih _ (nodup_countPacket p distinct)
  exact kept [] List.nodup_nil

/-- An entry of a table that started empty. -/
theorem value_counted (ps : List TsPacket) {c : TsPacketsCounter} (member : c ∈ counted [] ps) :
    c.value = BitVec.ofNat 32 (payloads c.pid ps) := by
  have entry := FindOrInsert.entry_own TsPacketsCounter.pid freshCounter (nodup_counted ps) member
  have value : counterOf (counted [] ps) c.pid = c.value := congrArg TsPacketsCounter.value entry
  have start : counterOf [] c.pid = 0#32 := rfl
  rw [← value, counterOf_counted, start, BitVec.zero_add]

theorem packed_append (counters : List TsPacketsCounter) (qs rs : List TsPacket) :
    packed counters (qs ++ rs) = packed counters qs ++ packed (counted counters qs) rs := by
  induction qs generalizing counters with
  | nil => rfl
  | cons q qs ih =>
    rw [List.cons_append, packed, ih, packed, List.cons_append]
    rfl

theorem attached_foldl_write {s : Bytestream} (h : s.attached = true) (bs : List (List UInt8)) :
    (bs.foldl Bytestream.write s).attached = true := by
  induction bs generalizing s with
  | nil => exact h
  | cons b bs ih => exact ih (Bytestream.attached_write h b)

/-- **The packets of a PID are packed as if they were alone**: every packet has a block of its own, and
after any number of packets the table has one entry for each of their PIDs, which counts them. -/
theorem pack_isolated {ps : List TsPacket}
    (fits : ∀ p ∈ ps, (p.pack (Bytestream.constructBuffer [])).2.2.store.length = 188) (b : Buffer) (pid : BitVec 13) :
    (∃ emitted : List (List UInt8), emitted.length = ps.length ∧
      emitted.map (fun block => (wireHeader block).pid) = ps.map TsPacket.pid ∧
      (∀ block ∈ emitted, block.length = 188) ∧
      (({ list := ps } : TsPackets).pack (Bytestream.constructBuffer b)).2.2.store = b ++ emitted.flatten ∧
      (({ list := ps.filter (·.pid = pid) } : TsPackets).pack (Bytestream.constructBuffer b)).2.2.store =
        b ++ (emitted.filter fun block => (wireHeader block).pid = pid).flatten) ∧
    ∀ k, let counters := (({ list := ps.take k } : TsPackets).pack (Bytestream.constructBuffer b)).2.1.counters
      (counters.map TsPacketsCounter.pid).Nodup ∧
        (∀ q : Int, q ∈ counters.map TsPacketsCounter.pid ↔ ∃ p ∈ ps.take k, (p.pid.toNat : Int) = q) ∧
        ∀ c ∈ counters, c.value.setWidth 4 = BitVec.ofNat 4 (payloads c.pid (ps.take k)) := by
  have width : ∀ p ∈ ps, p.normalised.bytes.length = 188 := by
    intro p member
    have length := fits p member
    rw [TsPacket.pack_eq p rfl, Bytestream.store_write rfl] at length
    exact length
  constructor
  · refine ⟨blocks [] ps, length_blocks [] ps, map_pid_blocks [] ps, width_blocks [] width, ?_, ?_⟩
    · rw [pack_eq _ rfl, store_foldl_write rfl]
      rfl
    · rw [blocks_filter, pack_eq _ rfl, store_foldl_write rfl]
      rfl
  · intro k
    rw [pack_eq _ rfl]
    refine ⟨nodup_counted _, ?_, fun c member => ?_⟩
    · intro q
      refine (mem_map_counted [] (ps.take k) q).trans (or_iff_right ?_)
      exact List.not_mem_nil
    · rw [value_counted _ member, BitVec.setWidth_ofNat_of_le (by decide)]

/-- Three packets, of two PIDs. -/
def interleaved : List TsPacket :=
  [{ pid := 256, adaptationFieldControl := 1, payloadData := [1] },
    { pid := 257, adaptationFieldControl := 1, payloadData := [2] },
    { pid := 256, adaptationFieldControl := 1, payloadData := [3] }]

/-- The packets of one PID among those of another. -/
theorem pack_isolated_two :
    (∃ emitted : List (List UInt8), emitted.length = interleaved.length ∧
      emitted.map (fun block => (wireHeader block).pid) = interleaved.map TsPacket.pid ∧
      (∀ block ∈ emitted, block.length = 188) ∧
      (({ list := interleaved } : TsPackets).pack (Bytestream.constructBuffer [])).2.2.store = [] ++ emitted.flatten ∧
      (({ list := interleaved.filter (·.pid = 256) } : TsPackets).pack (Bytestream.constructBuffer [])).2.2.store =
        [] ++ (emitted.filter fun block => (wireHeader block).pid = 256).flatten) ∧
    ∀ k, let counters := (({ list := interleaved.take k } : TsPackets).pack (Bytestream.constructBuffer [])).2.1.counters
      (counters.map TsPacketsCounter.pid).Nodup ∧
        (∀ q : Int, q ∈ counters.map TsPacketsCounter.pid ↔ ∃ p ∈ interleaved.take k, (p.pid.toNat : Int) = q) ∧
        ∀ c ∈ counters, c.value.setWidth 4 = BitVec.ofNat 4 (payloads c.pid (interleaved.take k)) := by
  have width : ∀ p ∈ interleaved, p.normalised.bytes.length = 188 := by decide +kernel
  have fits : ∀ p ∈ interleaved, (p.pack (Bytestream.constructBuffer [])).2.2.store.length = 188 := by
    intro p member
    rw [TsPacket.pack_eq p rfl, Bytestream.store_write rfl]
    exact width p member
  exact pack_isolated fits [] 256

end TsPackets
end Libts
