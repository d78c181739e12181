import Libts.Packet.RoundTrip
import Libts.Unit.Units

/-!
# Units in bytes

The packets of a unit are whole segments, so packing a list of units and sorting the
packets again is the identity; in between the packets go through their bytes, which leaves
of each what a unit is made of (`essence`).
-/

namespace Libts
set_option autoImplicit false

open CArith

namespace TsUnit

variable (u : TsUnit)

theorem packLoop_cons {base : List UInt8} (nonempty : base ≠ []) (count : Nat) :
    u.packLoop base count =
      { u.packet count with payloadData := base.take (min (u.room count) base.length) } ::
        u.packLoop (base.drop (min (u.room count) base.length)) (count + 1) := by
  rw [packLoop, dif_neg (by simpa using nonempty)]

/-- The payloads are the data. -/
theorem flatMap_packLoop (base : List UInt8) (count : Nat) :
    (u.packLoop base count).flatMap TsPacket.payloadData = base := by
  fun_induction packLoop u base count with
  | case1 base count empty => exact (List.eq_nil_of_length_eq_zero empty).symm
  | case2 base count nonempty payloadSize shorter ih =>
    rw [List.flatMap_cons, ih, List.take_append_drop]

/-- Every packet but the first is a plain packet of the PID. -/
theorem later_packLoop (base : List UInt8) (count : Nat) (later : count ≠ 0) :
    ∀ p ∈ u.packLoop base count, p.pid = u.pid ∧ p.payloadUnitStartIndicator = false := by
  fun_induction packLoop u base count with
  | case1 base count empty =>
    intro p member
    cases member
  | case2 base count nonempty payloadSize shorter ih =>
    intro p member
    rcases List.mem_cons.mp member with rfl | rest
    · rw [packet_eq]
      exact ⟨rfl, by simpa using later⟩
    · exact ih (by omega) p rest

/-- A packet of a unit has an adaptation field for its flags and no other. -/
theorem hasAdaptationField_packet (count : Nat) :
    (u.packet count).hasAdaptationField = (u.packet count).adaptationField.anyFlag := by
  rw [packet_eq, TsPacket.hasAdaptationField, TsAdaptationField.anyFlag]
  obtain first | later := eq_or_ne count 0
  · cases u.randomAccessIndicator <;> cases u.pcrFlag <;> simp [first]
  · simp [later]

/-- A packet with a payload that fits. -/
theorem encodable_packet (count : Nat) {payload : List UInt8} (fits : payload.length ≤ u.room count) :
    ({ u.packet count with payloadData := payload } : TsPacket).Encodable := by
  obtain ⟨room, positive⟩ := u.room_eq count
  have empty : (u.packet count).payloadSize = 0 := by
    rw [packet_eq]
    rfl
  have sound : (u.packet count).adaptationField.Sound := by
    rw [packet_eq]
    exact ⟨rfl, rfl, rfl, rfl, fun _ => rfl⟩
  rw [TsPacket.size, empty, hasAdaptationField_packet] at room
  refine ⟨sound, ?_⟩
  rw [show ({ u.packet count with payloadData := payload } : TsPacket).hasAdaptationField = (u.packet count).hasAdaptationField
    from rfl, hasAdaptationField_packet, TsPacket.payloadSize]
  by_cases flags : (u.packet count).adaptationField.anyFlag = true
  · rw [if_pos flags] at room ⊢
    exact ⟨flags, by simp only; omega⟩
  · rw [if_neg flags] at room ⊢
    exact ⟨by simp only; omega, fun flag => absurd flag flags⟩

theorem encodable_packLoop (base : List UInt8) (count : Nat) : ∀ p ∈ u.packLoop base count, p.Encodable := by
  fun_induction packLoop u base count with
  | case1 base count empty =>
    intro p member
    cases member
  | case2 base count nonempty payloadSize shorter ih =>
    intro p member
    rcases List.mem_cons.mp member with rfl | rest
    · apply encodable_packet
      rw [List.length_take]
      omega
    · exact ih p rest

end TsUnit

namespace TsPacket

/-- What a unit is made of. -/
def essence (p : TsPacket) : TsPacket :=
  { pid := p.pid
    payloadUnitStartIndicator := p.payloadUnitStartIndicator
    payloadData := p.payloadData
    adaptationField :=
      { randomAccessIndicator := p.adaptationField.randomAccessIndicator
        pcrFlag := p.adaptationField.pcrFlag } }

theorem SameFields.essence {p q : TsPacket} (h : SameFields p q) : p.essence = q.essence := by
  have fields := congrArg TsPacket.essence h
  exact fields

theorem essence_normalised (p : TsPacket) : p.normalised.essence = p.essence := by
  rw [normalised_eq]
  rfl

end TsPacket

namespace TsPackets

theorem essence_packed (counters : List TsPacketsCounter) (ps : List TsPacket) :
    (packed counters ps).map TsPacket.essence = ps.map TsPacket.essence := by
  induction ps generalizing counters with
  | nil => rfl
  | cons p ps ih =>
    rw [packed, List.map_cons, List.map_cons, ih, TsPacket.essence_normalised]
    rfl

end TsPackets

namespace TsUnits
open TsPacket

/-- The unit without the number of its clock. -/
def blank (u : TsUnit) : TsUnit := { u with pcr := 0 }

/-- The units of packets, up to their clocks, are made of the essence of the packets. -/
theorem blank_segments (ps : List TsPacket) :
    ((segments ps).map ofSegment).map blank = ((segments (ps.map essence)).map ofSegment).map blank := by
  have payloads : ∀ qs : List TsPacket, (qs.map essence).flatMap TsPacket.payloadData = qs.flatMap TsPacket.payloadData := by
    intro qs
    rw [List.flatMap_map]
    rfl
  have same : ∀ g : TsPacket × List TsPacket, blank (ofSegment (essence g.1, g.2.map essence)) = blank (ofSegment g) := by
    rintro ⟨p, qs⟩
    simp only [ofSegment, extend, opened_eq, List.flatMap_cons, payloads, blank, essence]
  have cut : segments (ps.map essence) = (segments ps).map fun g => (essence g.1, g.2.map essence) :=
    Demux.segments_map essence ps
  rw [cut, List.map_map, List.map_map, List.map_map]
  apply List.map_congr_left
  intro g _
  exact (same g).symm

/-- The segment a unit is cut into. -/
def segment (u : TsUnit) : TsPacket × List TsPacket :=
  ({ u.packet 0 with payloadData := u.data.take (min (u.room 0) u.data.length) },
    u.packLoop (u.data.drop (min (u.room 0) u.data.length)) 1)

theorem whole_segment (u : TsUnit) : Demux.Whole TsPacket.pid TsPacket.payloadUnitStartIndicator (segment u) := by
  have later := u.later_packLoop (u.data.drop (min (u.room 0) u.data.length)) 1 (by decide)
  have pid : (segment u).1.pid = u.pid := by
    simp only [segment, TsUnit.packet_eq]
  refine ⟨?_, ?_, fun p member => (later p member).2⟩
  · simp only [segment, TsUnit.packet_eq]
    rfl
  · intro p member
    rw [pid]
    exact (later p member).1

theorem ofSegment_segment (u : TsUnit) : blank (ofSegment (segment u)) = blank u := by
  have data : ((segment u).1 :: (segment u).2).flatMap TsPacket.payloadData = u.data := by
    rw [List.flatMap_cons, segment, u.flatMap_packLoop, List.take_append_drop]
  rw [ofSegment, extend, data, opened_eq]
  simp [segment, TsUnit.packet_eq, blank]

theorem packLoop_eq (us : List TsUnit) (packets : TsPackets) (count : Int) :
    packLoop us packets count =
      (count + us.length, { packets with list := packets.list ++ us.flatMap fun u => u.packLoop u.data 0 }) := by
  induction us generalizing packets count with
  | nil => simp [packLoop]
  | cons u us ih =>
    have packed : ¬ (0 : Int) = -1 := by decide
    rw [packLoop, TsUnit.pack]
    simp only [if_neg packed, ih, List.flatMap_cons, List.append_assoc, List.length_cons, Prod.mk.injEq, and_true]
    omega

/-- A settled packet is read back in its essence. -/
theorem essence_decoded [Compilation] {qs : List TsPacket} (settled : ∀ q ∈ qs, q.Settled) :
    (qs.map fun q => wirePacket q.bytes).map essence = qs.map essence := by
  rw [List.map_map]
  apply List.map_congr_left
  intro q member
  have same := ((settled q member).wirePacket []).essence
  rw [List.append_nil] at same
  exact same

/-- The packets of units are their segments in a row. -/
theorem segments_packLoop {us : List TsUnit} (filled : ∀ u ∈ us, u.data ≠ []) :
    segments (us.flatMap fun u => u.packLoop u.data 0) = us.map segment := by
  have cut : us.flatMap (fun u => u.packLoop u.data 0) = ((us.map segment).map fun g => g.1 :: g.2).flatten := by
    rw [List.flatMap_def, List.map_map]
    congr 1
    apply List.map_congr_left
    intro u member
    exact u.packLoop_cons (filled u member) 0
  rw [cut]
  apply Demux.segments_flatten
  intro g member
  obtain ⟨u, -, rfl⟩ := List.mem_map.mp member
  exact whole_segment u

/-- **Units survive the byte path**: packed, written, read and sorted again they are the
units they were, up to the numbers of their clocks. -/
theorem unpack_bytes [Compilation] {us : List TsUnit} (nonempty : us ≠ []) (filled : ∀ u ∈ us, u.data ≠ []) :
    ∃ packets left s decoded t units,
      ({ list := us } : TsUnits).pack TsPackets.construct = ((us.length : Int), packets) ∧
      packets.pack (Bytestream.constructBuffer []) = ((packets.list.length : Int), left, s) ∧
      s.store.length = 188 * packets.list.length ∧
      TsPackets.construct.unpack (Bytestream.constructBuffer s.store) =
        some ((packets.list.length : Int), decoded, t) ∧
      construct.unpack decoded = ((us.length : Int), units) ∧
      units.list.map blank = us.map blank := by
  -- `ps` are the packets as they are cut, `qs` as they are written
  let ps := us.flatMap fun u => u.packLoop u.data 0
  let qs := TsPackets.packed [] ps
  have cut : ({ list := us } : TsUnits).pack TsPackets.construct = ((us.length : Int), { list := ps }) := by
    rw [pack, packLoop_eq, Int.zero_add]
    rfl
  have encodable : ∀ p ∈ ps, p.Encodable := by
    intro p member
    obtain ⟨u, -, inside⟩ := List.mem_flatMap.mp member
    exact u.encodable_packLoop _ _ p inside
  have settled : ∀ q ∈ qs, q.Settled := TsPackets.settled_packed encodable []
  have length : qs.length = ps.length := TsPackets.length_packed [] ps
  have written : qs ≠ [] := by
    obtain ⟨u, vs, rfl⟩ := List.exists_cons_of_ne_nil nonempty
    have first := u.packLoop_cons (filled u List.mem_cons_self) 0
    rw [← List.length_pos_iff, length]
    simp [ps, first]
  have essences : (qs.map fun q => wirePacket q.bytes).map essence = ps.map essence := by
    rw [← TsPackets.essence_packed [] ps]
    exact essence_decoded settled
  have units : ((segments (qs.map fun q => wirePacket q.bytes)).map ofSegment).map blank = us.map blank := by
    rw [blank_segments, essences, ← blank_segments, segments_packLoop filled, List.map_map, List.map_map]
    apply List.map_congr_left
    intro u _
    exact ofSegment_segment u
  obtain ⟨t, read⟩ := TsPackets.unpack_settled written settled
  rw [length] at read
  refine ⟨{ list := ps }, _, _, { list := qs.map fun q => wirePacket q.bytes }, t, _, cut, TsPackets.pack_eq _ rfl, ?_,
    ?_, ?_, units⟩
  · have widths : ∀ b ∈ qs.map bytes, b.length = 188 := by
      intro b member
      obtain ⟨q, there, rfl⟩ := List.mem_map.mp member
      exact (settled q there).length_bytes
    have total := TsPackets.length_flatten widths
    rw [List.length_map, length] at total
    rw [TsPackets.store_foldl_write rfl]
    exact total
  · rw [TsPackets.store_foldl_write rfl]
    exact read
  · have count := congrArg List.length units
    rw [List.length_map, List.length_map, List.length_map, segments, Demux.length_segments] at count
    rw [unpack_eq, count]

section AtRunTime
attribute [local instance] Compilation.atRunTime

/-- Two units of one PID, the first with a clock. -/
theorem unpack_bytes_two :
    ∃ packets left s decoded t units,
      ({ list := [{ pid := 256, pcrFlag := true, pcr := 300, data := [1, 2, 3] }, { pid := 256, data := [4] }] } :
        TsUnits).pack TsPackets.construct = ((2 : Int), packets) ∧
      packets.pack (Bytestream.constructBuffer []) = ((packets.list.length : Int), left, s) ∧
      s.store.length = 188 * packets.list.length ∧
      TsPackets.construct.unpack (Bytestream.constructBuffer s.store) =
        some ((packets.list.length : Int), decoded, t) ∧
      construct.unpack decoded = ((2 : Int), units) ∧
      units.list.map blank = [({ pid := 256, pcrFlag := true, pcr := 300, data := [1, 2, 3] } : TsUnit),
        { pid := 256, data := [4] }].map blank :=
  unpack_bytes (by decide) (by decide)

end AtRunTime

end TsUnits
end Libts
