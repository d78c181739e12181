import Libts.Packet.Load
import Libts.Unit.BytePath

/-!
# Unit files

`ts_units_save` packs the units and saves the packets; `ts_units_load` loads packets and sorts them.
In between nothing is lost of a unit with data but bits of its clock (`load_saved_units`). A unit without
data has no packet, and a list of such units is saved as an empty file (`packedBytes_eq_nil`).
-/

namespace Libts
set_option autoImplicit false

open CArith

namespace TsUnit

/-- The unit with its clock as it is read back. -/
def reread [Compilation] (u : TsUnit) : TsUnit := { u with pcr := if u.pcrFlag then TsPcr.reread u.pcr else 0 }

theorem reread_reread [Compilation] (u : TsUnit) : u.reread.reread = u.reread := by
  cases flag : u.pcrFlag <;> simp [reread, flag, TsPcr.reread_reread]

end TsUnit

namespace TsUnits

open PosixFile TsPackets

/-- `ts_units_load`. -/
def load [Compilation] (units : TsUnits) (file : Option (List UInt8)) (io : Reads) : Option (Int × TsUnits) :=
  (TsPackets.construct.load file io).map fun (n, packets) =>
    if n = -1 then (-1, units) else units.unpack packets

/-- `ts_units_save`, with the file it leaves. -/
def save (units : TsUnits) (file : Option (List UInt8)) (io : Outcomes) : Option (Int × Option (List UInt8)) :=
  let (n, packets) := units.pack TsPackets.construct
  if n = -1 then some (-1, file) else (packets.save file io).map fun (n, _, file) => (n, file)

/-- The packets of units. -/
def packets (us : List TsUnit) : TsPackets := { list := us.flatMap fun u => u.packLoop u.data 0 }

/-- The units that have packets. -/
def filled (us : List TsUnit) : List TsUnit := us.filter fun u => !u.data.isEmpty

/-- What a save writes. -/
def packedBytes (us : List TsUnit) : List UInt8 := (packets us).packedBytes

theorem pack_construct (us : List TsUnit) :
    ({ list := us } : TsUnits).pack TsPackets.construct = ((us.length : Int), packets us) := by
  rw [pack, packLoop_eq, Int.zero_add]
  rfl

theorem packets_filled (us : List TsUnit) : packets (filled us) = packets us := by
  have list : (filled us).flatMap (fun u => u.packLoop u.data 0) = us.flatMap fun u => u.packLoop u.data 0 := by
    induction us with
    | nil => rfl
    | cons u us ih =>
      rw [filled, List.filter_cons]
      split
      · rw [List.flatMap_cons, List.flatMap_cons]
        exact congrArg _ ih
      · rename_i empty
        have none : u.data.length = 0 := by simpa using empty
        have nothing : u.packLoop u.data 0 = [] := by rw [TsUnit.packLoop, dif_pos none]
        rw [List.flatMap_cons, nothing, List.nil_append]
        exact ih
  rw [packets, packets, list]

theorem encodable_packets (us : List TsUnit) : ∀ p ∈ (packets us).list, p.Encodable := by
  intro p member
  obtain ⟨u, -, inside⟩ := List.mem_flatMap.mp member
  exact u.encodable_packLoop _ _ p inside

theorem packets_nonempty {us : List TsUnit} (some : filled us ≠ []) : (packets us).list ≠ [] := by
  obtain ⟨u, vs, list⟩ := List.exists_cons_of_ne_nil some
  have member : u ∈ filled us := by
    rw [list]
    exact List.mem_cons_self
  have data : u.data ≠ [] := by simpa using (List.mem_filter.mp member).2
  rw [← packets_filled, list, packets, List.flatMap_cons, u.packLoop_cons data]
  exact List.cons_ne_nil _ _

/-! ## What a unit takes from a packet -/

/-- What a unit takes from a packet, its clock included. -/
def core (p : TsPacket) : TsPacket :=
  { pid := p.pid
    payloadUnitStartIndicator := p.payloadUnitStartIndicator
    payloadData := p.payloadData
    adaptationField :=
      { randomAccessIndicator := p.adaptationField.randomAccessIndicator
        pcrFlag := p.adaptationField.pcrFlag
        pcr := p.adaptationField.pcr } }

theorem segments_core (ps : List TsPacket) :
    (segments (ps.map core)).map ofSegment = (segments ps).map ofSegment := by
  have payloads : ∀ qs : List TsPacket, (qs.map core).flatMap TsPacket.payloadData = qs.flatMap TsPacket.payloadData := by
    intro qs
    rw [List.flatMap_map]
    rfl
  have cut : segments (ps.map core) = (segments ps).map fun g => (core g.1, g.2.map core) := Demux.segments_map core ps
  rw [cut, List.map_map]
  apply List.map_congr_left
  rintro ⟨p, qs⟩ -
  simp only [Function.comp_apply, ofSegment, extend, opened_eq, List.flatMap_cons, payloads, core]

theorem map_core_packed (counters : List TsPacketsCounter) (ps : List TsPacket) :
    (packed counters ps).map core = ps.map core := by
  induction ps generalizing counters with
  | nil => rfl
  | cons p ps ih =>
    rw [packed, List.map_cons, List.map_cons, ih, TsPacket.normalised_eq]
    rfl

/-- The units of packets whose clocks are read again. -/
theorem segments_reread [Compilation] (ps : List TsPacket) :
    (segments (ps.map TsPacket.reread)).map ofSegment = ((segments ps).map ofSegment).map TsUnit.reread := by
  have payloads : ∀ qs : List TsPacket,
      (qs.map TsPacket.reread).flatMap TsPacket.payloadData = qs.flatMap TsPacket.payloadData := by
    intro qs
    rw [List.flatMap_map]
    rfl
  have cut : segments (ps.map TsPacket.reread) = (segments ps).map fun g => (g.1.reread, g.2.map TsPacket.reread) :=
    Demux.segments_map TsPacket.reread ps
  rw [cut, List.map_map, List.map_map]
  apply List.map_congr_left
  rintro ⟨p, qs⟩ -
  have start : (p.reread.payloadData) = p.payloadData := rfl
  simp only [Function.comp_apply, ofSegment, extend, opened_eq, List.flatMap_cons, payloads, start, TsUnit.reread]
  cases flag : p.adaptationField.pcrFlag <;> simp [TsPacket.reread, TsAdaptationField.reread, flag]

/-- A unit without a clock that has no flag. -/
def flagged (u : TsUnit) : TsUnit := { u with pcr := if u.pcrFlag then u.pcr else 0 }

/-- A unit is one segment, and all of it but a clock without its flag. -/
theorem ofSegment_segment_eq (u : TsUnit) : ofSegment (segment u) = flagged u := by
  have data : ((segment u).1 :: (segment u).2).flatMap TsPacket.payloadData = u.data := by
    rw [List.flatMap_cons, segment, u.flatMap_packLoop, List.take_append_drop]
  rw [ofSegment, extend, data, opened_eq]
  cases flag : u.pcrFlag <;> simp [segment, flagged, TsUnit.packet_eq, flag]

/-- **The packets of units are sorted into the units again.** -/
theorem segments_cut (us : List TsUnit) :
    (segments (packets us).list).map ofSegment = (filled us).map flagged := by
  have data : ∀ u ∈ filled us, u.data ≠ [] := by
    intro u member
    simpa using (List.mem_filter.mp member).2
  rw [← packets_filled, packets, segments_packLoop data, List.map_map]
  exact List.map_congr_left fun u _ => ofSegment_segment_eq u

/-- The same when they were written, the clocks read once. -/
theorem segments_packets [Compilation] (us : List TsUnit) (counters : List TsPacketsCounter) :
    (segments ((packed counters (packets us).list).map TsPacket.reread)).map ofSegment =
      (filled us).map TsUnit.reread := by
  rw [segments_reread, ← segments_core, map_core_packed, segments_core, segments_cut, List.map_map]
  apply List.map_congr_left
  intro u _
  cases flag : u.pcrFlag <;> simp [TsUnit.reread, flagged, flag]

/-- No unit has more data than all packets together. -/
theorem length_data_le {ps : List TsPacket} {u : TsUnit} (member : u ∈ (segments ps).map ofSegment) :
    u.data.length ≤ (ps.flatMap TsPacket.payloadData).length := by
  obtain ⟨g, inside, rfl⟩ := List.mem_map.mp member
  have data : (ofSegment g).data = (g.1 :: g.2).flatMap TsPacket.payloadData := by
    rw [ofSegment, extend, opened_eq]
    rfl
  rw [data]
  exact ((Demux.sublist_of_mem_segments inside).flatMap _).length_le

/-! ## Files -/

section Files

variable {us : List TsUnit} {file left : Option (List UInt8)} {out : Outcomes} {io : Reads} {n : Int}

/-- What a save returns and leaves. -/
theorem save_eq (us : List TsUnit) (file : Option (List UInt8)) (io : Outcomes) :
    ({ list := us } : TsUnits).save file io =
      (bufferSave (packedBytes us) file io).map fun saved => (((packets us).list.length : Int), saved.2) := by
  have counted : ¬ (us.length : Int) = -1 := by omega
  simp only [save, pack_construct, if_neg counted, TsPackets.save_eq, Option.map_map]
  rfl

theorem save_left (saved : ({ list := us } : TsUnits).save file out = some (n, left))
    (lands : out.Lands file (packedBytes us)) :
    n = (packets us).list.length ∧ left = some (packedBytes us) := by
  rw [save_eq] at saved
  obtain ⟨⟨e, kept⟩, stored, same⟩ := Option.map_eq_some_iff.1 saved
  cases same
  exact ⟨rfl, (bufferSave_lands_iff _ _ _).2 lands _ _ stored⟩

/-- What a load makes of a file that holds packed units. -/
theorem load_packed [Compilation] (some' : filled us ≠ []) (complete : io.Complete (packedBytes us)) :
    construct.load (some (packedBytes us)) io =
      some (((filled us).length : Int), { list := (filled us).map TsUnit.reread }) := by
  have nonempty : packed (packets us).counters (packets us).list ≠ [] := by
    rw [← List.length_pos_iff, length_packed]
    exact List.length_pos_iff.mpr (packets_nonempty some')
  have settled := settled_packed (encodable_packets us) (packets us).counters
  have counted : ¬ ((packed (packets us).counters (packets us).list).length : Int) = -1 := by omega
  rw [packedBytes, packedBytes_eq] at complete ⊢
  rw [load, load_settled nonempty settled complete, Option.map_some]
  simp only [if_neg counted]
  have units := segments_packets us (packets us).counters
  have count := congrArg List.length units
  rw [List.length_map, List.length_map, segments, Demux.length_segments] at count
  rw [unpack_eq, units, count]

/-- **Units come back from a file**, those that have data, with nothing changed but their clocks. -/
theorem load_saved_units [Compilation] (some' : filled us ≠ [])
    (saved : ({ list := us } : TsUnits).save file out = some (n, left))
    (lands : out.Lands file (packedBytes us)) (complete : io.Complete (packedBytes us)) :
    construct.load left io = some (((filled us).length : Int), { list := (filled us).map TsUnit.reread }) := by
  obtain ⟨-, rfl⟩ := save_left saved lands
  exact load_packed some' complete

/-- Two units with data and one without, the first with a clock. -/
def threeUnits : List TsUnit :=
  [{ pid := 256, pcrFlag := true, pcr := 450, data := [1, 2, 3] }, { pid := 257 }, { pid := 256, data := [4] }]

theorem length_packedBytes_threeUnits : (packedBytes threeUnits).length = 376 := by
  have settled := settled_packed (encodable_packets threeUnits) (packets threeUnits).counters
  have widths := widths_settled settled
  have count : (packets threeUnits).list.length = 2 := by decide +kernel
  rw [packedBytes, packedBytes_eq, length_flatten widths, List.length_map, length_packed, count]

section AtRunTime
attribute [local instance] Compilation.atRunTime

theorem load_saved_units_three :
    construct.load (some (packedBytes threeUnits)) ⟨true, [.gives 400 (by decide), .gives 1 (by decide)]⟩ =
      some (2, { list := [
        { pid := 256, pcrFlag := true, pcr := 450, data := [1, 2, 3] }, { pid := 256, data := [4] }] }) := by
  have length := length_packedBytes_threeUnits
  have taken : granted [.takes 376] = 376 := rfl
  have lands : Outcomes.Lands ⟨true, [.takes 376]⟩ none (packedBytes threeUnits) := by
    rw [Outcomes.lands_iff_of_taken rfl (by rw [length, taken])]
    exact Nat.zero_le _
  have written : ¬ Unfinished [.takes 376] (packedBytes threeUnits).length := by
    rintro ⟨few, -⟩
    rw [length] at few
    exact absurd few (by decide)
  have opened : Outcomes.opened ⟨true, [.takes 376]⟩ = true := rfl
  have stored := bufferSave_eq opened (packedBytes threeUnits) none
  rw [if_neg written] at stored
  have saved := save_eq threeUnits none ⟨true, [.takes 376]⟩
  rw [stored, (bufferSave_lands_iff _ _ _).2 lands _ _ stored] at saved
  have complete : Reads.Complete ⟨true, [.gives 400 (by decide), .gives 1 (by decide)]⟩ (packedBytes threeUnits) := by
    rw [Reads.Complete, Reads.ending, length]
    rfl
  exact load_saved_units (by decide) saved lands complete

end AtRunTime

/-- Without data there is nothing to save. -/
theorem packedBytes_eq_nil (none : filled us = []) : packedBytes us = [] := by
  rw [packedBytes, ← packets_filled, none]
  rfl

end Files

end TsUnits
end Libts
