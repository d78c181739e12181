import Libts.Unit.Units

/-!
# Packets in parts

`ts_units_unpack` can be called again with the units it has filled, but it does not remember which of
them were incomplete. A second call appends the units of its own packets; those that would have gone
into a unit of the first are dropped. So packets in parts give the units of all of them exactly when
there are none such with a payload (`unpack_parts_iff`).
-/

namespace Libts
set_option autoImplicit false

namespace TsUnits

/-- A call on any units appends those of its packets. -/
theorem unpack_append (units : TsUnits) (packets : TsPackets) :
    units.unpack packets =
      ((packets.list.countP TsPacket.payloadUnitStartIndicator : Int),
        { list := units.list ++ (segments packets.list).map ofSegment }) := by
  have empty : Open units.list [] := ⟨List.forall_mem_nil _, List.nodup_nil, List.forall_mem_nil _⟩
  have kept : completed [] packets.list units.list = units.list := by
    rw [completed, List.mapIdx_eq_iff]
    intro i
    cases units.list[i]? with
    | none => rfl
    | some u => simp
  rw [unpack, unpackLoop_eq packets.list empty, kept, Int.zero_add]

/-- Packets that add no bytes to a unit. -/
theorem ofSegment_append_iff (p : TsPacket) (ps qs : List TsPacket) :
    ofSegment (p, ps ++ qs) = ofSegment (p, ps) ↔ qs.flatMap TsPacket.payloadData = [] := by
  have data (ps : List TsPacket) : ofSegment (p, ps) =
      { opened p with data := p.payloadData ++ ps.flatMap TsPacket.payloadData } := by
    rw [ofSegment, extend, opened_eq, List.flatMap_cons, List.nil_append]
  rw [data, data, List.flatMap_append, ← List.append_assoc]
  constructor
  · intro same
    exact List.append_right_eq_self.mp (congrArg TsUnit.data same)
  · intro none
    rw [none, List.append_nil]

/-- **Packets in parts**: the same count, and the same units exactly when no payload of the second part follows into a
unit that a packet of the first part opened. -/
theorem unpack_parts_iff (units : TsUnits) (P Q : TsPackets) :
    (units.unpack P).1 + ((units.unpack P).2.unpack Q).1 = (units.unpack { list := P.list ++ Q.list }).1 ∧
      (((units.unpack P).2.unpack Q).2 = (units.unpack { list := P.list ++ Q.list }).2 ↔
        ∀ p ∈ P.list, p.payloadUnitStartIndicator = true →
          (followers p.pid Q.list).flatMap TsPacket.payloadData = []) := by
  rw [unpack_append units P, unpack_append, unpack_append]
  constructor
  · show ((P.list.countP TsPacket.payloadUnitStartIndicator : Int) + _) = _
    rw [List.countP_append, Int.natCast_add]
  · have parts : (Demux.segmentsBefore TsPacket.pid TsPacket.payloadUnitStartIndicator P.list Q.list).map ofSegment =
        (segments P.list).map ofSegment ↔ _ := Demux.map_segmentsBefore_iff ofSegment_append_iff P.list Q.list
    show TsUnits.mk _ = TsUnits.mk _ ↔ _
    rw [← parts, segments, segments, segments, Demux.segments_before, List.map_append, mk.injEq, List.append_assoc,
      List.append_cancel_left_eq, List.append_cancel_right_eq]
    exact eq_comm

end TsUnits
end Libts
