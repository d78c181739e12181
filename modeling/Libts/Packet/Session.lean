import Libts.Packet.Isolation
import Libts.Packet.Load

/-!
# Calls in a row

A `ts_packets` keeps its counters from one call of `ts_packets_pack` to the next, while the caller puts
other packets on its list. So calls in a row number all packets they get as one call does (`packCalls_eq`), and
the counters are continuous over the calls where they are over one (`packCalls_continuity_iff`). For packets
that are sent again and again it is enough to look at two rounds (`pidChain_rounds`).
-/

namespace Libts
set_option autoImplicit false

namespace TsPackets
open TsPacket

/-- Calls of `pack` on one object, with what the caller leaves on its list in front of each. -/
def packCalls : List (List TsPacket) → TsPackets → Bytestream → TsPackets × Bytestream
  | [], packets, s => (packets, s)
  | ps :: calls, packets, s =>
    let (_, packets, s) := ({ packets with list := ps } : TsPackets).pack s
    packCalls calls packets s

theorem counted_append (counters : List TsPacketsCounter) (ps qs : List TsPacket) :
    counted counters (ps ++ qs) = counted (counted counters ps) qs := List.foldl_append

/-- Calls in a row leave the counters and the bytes of one call. -/
theorem packCalls_eq (calls : List (List TsPacket)) (packets : TsPackets) {s : Bytestream} (h : s.attached = true) :
    (packCalls calls packets s).1.counters = counted packets.counters calls.flatten ∧
      (packCalls calls packets s).2 =
        ((packed packets.counters calls.flatten).map TsPacket.bytes).foldl Bytestream.write s := by
  induction calls generalizing packets s with
  | nil => exact ⟨rfl, rfl⟩
  | cons ps calls ih =>
    have attached := attached_foldl_write h ((packed packets.counters ps).map TsPacket.bytes)
    rw [packCalls, pack_eq _ h, List.flatten_cons, counted_append, packed_append, List.map_append, List.foldl_append]
    exact ih _ attached

/-! ## Rounds -/

/-- A chain through any number of rounds is one through two. -/
theorem isChain_rounds {α : Type} {R : α → α → Prop} (l : List α) (n : Nat) :
    (List.replicate (n + 2) l).flatten.IsChain R ↔ (l ++ l).IsChain R := by
  obtain rfl | filled := eq_or_ne l []
  · simp
  · have rounds : [] ∉ List.replicate (n + 2) l := by
      intro member
      exact filled (List.eq_of_mem_replicate member).symm
    have links {Q : List α → List α → Prop} : (List.replicate (n + 2) l).IsChain Q ↔ Q l l := by
      constructor
      · intro chain
        exact chain.rel
      · intro link
        exact List.isChain_replicate_of_rel _ link
    rw [List.isChain_flatten rounds, links, List.isChain_append]
    simp

theorem pidChain_rounds {R : TsPacket → TsPacket → Prop} (ps : List TsPacket) (n : Nat) :
    PidChain R (List.replicate (n + 2) ps).flatten ↔ PidChain R (ps ++ ps) := by
  apply forall_congr'
  intro pid
  rw [List.filter_flatten, List.map_replicate, isChain_rounds, List.filter_append]

/-- **The counters over calls in a row** are continuous exactly when each packet announces the next of its PID, in
whatever call that is. Where the same packets are sent again and again, it is enough to look at two rounds. -/
theorem packCalls_continuity_iff (calls : List (List TsPacket)) :
    ∃ emitted : List TsPacket, emitted.length = calls.flatten.length ∧
      (packCalls calls construct (Bytestream.constructBuffer [])).2.store = (emitted.map bytes).flatten ∧
      (PidChain Continuous (emitted.map fun p => wireHeader p.bytes) ↔ PidChain Announces calls.flatten) ∧
      ∀ ps n, calls = List.replicate (n + 2) ps → (PidChain Announces calls.flatten ↔ PidChain Announces (ps ++ ps)) := by
  obtain ⟨-, written⟩ := packCalls_eq calls construct (s := Bytestream.constructBuffer []) rfl
  refine ⟨packed [] calls.flatten, length_packed _ _, ?_, ?_, ?_⟩
  · rw [written]
    exact store_foldl_write rfl _
  · rw [pidChain_emitted]
    apply forall_congr'
    intro pid
    rw [filter_packed, isChain_numbered]
  · rintro ps n rfl
    exact pidChain_rounds ps n

end TsPackets
end Libts
