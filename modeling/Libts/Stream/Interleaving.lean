import Libts.Stream.Passes

/-!
# Interleavings of PIDs

Two packet lists with the same packets of each PID have the same units of each PID
(`unpack_filter`), in whatever order the units of different PIDs stand. Each pass of the
decoder reads the units of one PID, so it decodes both to the same stream.
-/

namespace Libts
set_option autoImplicit false

namespace TsUnits

/-- The units of a PID are made of the packets of that PID. -/
theorem unpack_filter (packets : TsPackets) (pid : BitVec 13) :
    (construct.unpack packets).2.list.filter (fun u => u.pid = pid) =
      (segments (packets.list.filter fun p => p.pid = pid)).map ofSegment := by
  have own : (fun u : TsUnit => decide (u.pid = pid)) ∘ ofSegment = fun g => decide (g.1.pid = pid) := by
    funext g
    exact congrArg (fun k => decide (k = pid)) (pid_opened g.1)
  rw [unpack_eq, List.filter_map, own, Demux.filter_segments]

end TsUnits

namespace TsStream

/-- The same units of each PID. -/
def SameUnits (units units' : TsUnits) : Prop :=
  ∀ pid : BitVec 13, units.list.filter (fun u => u.pid = pid) = units'.list.filter fun u => u.pid = pid

variable {units units' : TsUnits}

/-- A PID as an `int` is that of a unit, or no unit has it. -/
theorem SameUnits.filter_int (same : SameUnits units units') (pid : Int) :
    units.list.filter (fun u => (u.pid.toNat : Int) = pid) = units'.list.filter fun u => (u.pid.toNat : Int) = pid := by
  obtain ⟨wire, rfl⟩ | none := Classical.em (∃ wire : BitVec 13, (wire.toNat : Int) = pid)
  · rw [filter_toNat, filter_toNat]
    exact same wire
  · have empty : ∀ us : List TsUnit, us.filter (fun u => (u.pid.toNat : Int) = pid) = [] := by
      intro us
      rw [List.filter_eq_nil_iff]
      intro u _ own
      exact none ⟨u.pid, of_decide_eq_true own⟩
    rw [empty, empty]

/-- Decoding reads the units PID by PID. -/
theorem SameUnits.unpack_eq (same : SameUnits units units') (ts : TsStream) : ts.unpack units = ts.unpack units' := by
  have pat (ts : TsStream) : ts.unpackPat units = ts.unpackPat units' := by
    rw [unpackPat, unpackPat, unpackPatLoop_filter, same 0, ← unpackPatLoop_filter]
  have pmt (ts : TsStream) : ts.unpackPmt units = ts.unpackPmt units' := by
    rw [unpackPmt, unpackPmt, unpackPmtLoop_filter, same.filter_int, ← unpackPmtLoop_filter]
  have pes (ts : TsStream) : ts.unpackPes units = ts.unpackPes units' := by
    have read : TsStreamPes.unpackUnits units.list = TsStreamPes.unpackUnits units'.list := by
      funext p
      rw [TsStreamPes.unpackUnits_filter, same.filter_int, ← TsStreamPes.unpackUnits_filter]
    rw [unpackPes, unpackPes, read]
  simp only [unpack, pat, pmt, pes]

/-- **The order in which PIDs are interleaved does not matter.** The return code and the
decoded stream are the same, also where decoding fails. -/
theorem unpack_interleaved (ts : TsStream) (P Q : TsPackets)
    (same : ∀ pid : BitVec 13, P.list.filter (fun p => p.pid = pid) = Q.list.filter fun p => p.pid = pid) :
    ts.unpack (TsUnits.construct.unpack P).2 = ts.unpack (TsUnits.construct.unpack Q).2 := by
  have units : SameUnits (TsUnits.construct.unpack P).2 (TsUnits.construct.unpack Q).2 := by
    intro pid
    rw [TsUnits.unpack_filter, TsUnits.unpack_filter, same pid]
  exact units.unpack_eq ts

/-- A packet that is full with stuffing, as the encoder settles it. -/
def stuffed (pid : BitVec 13) (start : Bool) (data : List UInt8) : TsPacket :=
  { pid := pid, payloadUnitStartIndicator := start, adaptationFieldControl := 3, payloadData := data }

/-- A program of two streams: its association and its map, an audio packet, and a video packet in two parts. -/
def program : TsPackets :=
  { list := [
      stuffed 0 true [0, 0, 0xb0, 13, 0, 1, 0xc1, 0, 0, 0, 1, 0xf0, 0, 0x2a, 0xb1, 0x04, 0xb2],
      stuffed 4096 true [0, 2, 0xb0, 23, 0, 1, 0xc1, 0, 0, 0xe1, 0, 0xf0, 0, 27, 0xe1, 0, 0xf0, 0, 15, 0xe1, 1, 0xf0, 0,
        0x2f, 0x44, 0xb9, 0x9b],
      stuffed 257 true [0, 0, 1, 0xc0, 0, 9, 0x80, 0x80, 5, 0x21, 0, 1, 0, 0x15, 2],
      stuffed 256 true [0, 0, 1, 0xe0, 0, 10, 0x80, 0x80, 5, 0x21, 0, 1, 0, 0x29, 1],
      stuffed 256 false [3]] }

/-- The same packets with the video in front and the tables behind. -/
def shuffled : TsPackets :=
  { list := [program.list[3], program.list[2], program.list[1], program.list[4], program.list[0]] }

/-- Both have the same packets of each PID. -/
theorem filter_shuffled (pid : BitVec 13) :
    program.list.filter (fun p => p.pid = pid) = shuffled.list.filter fun p => p.pid = pid := by
  obtain rfl | association := eq_or_ne 0#13 pid
  · rfl
  obtain rfl | map := eq_or_ne 4096#13 pid
  · rfl
  obtain rfl | audio := eq_or_ne 257#13 pid
  · rfl
  obtain rfl | video := eq_or_ne 256#13 pid
  · rfl
  simp [program, shuffled, stuffed, association, map, audio, video]

/-- Both are decoded, to the payloads of the two streams. -/
theorem unpack_interleaved_program :
    construct.unpack (TsUnits.construct.unpack program).2 = construct.unpack (TsUnits.construct.unpack shuffled).2 ∧
      (construct.unpack (TsUnits.construct.unpack shuffled).2).1 = 1 ∧
      ((construct.unpack (TsUnits.construct.unpack shuffled).2).2.streams.map fun s =>
        (s.pid, s.type, s.packets.map TsPes.data)) = [(256, 27, [[1, 3]]), (257, 15, [[2]])] :=
  ⟨unpack_interleaved construct program shuffled filter_shuffled, by decide +kernel, by decide +kernel⟩

end TsStream
end Libts
