import Libts.Stream.Resaved

/-!
# Streams that were decoded

Whatever the units were, a description can be given of the stream that was decoded from them, unless a
stream of it has the PID of one of the tables (`describable_unpack`), and its packets are ones the
decoder made of units (`read_unpack`). So what the encoder writes of a decoded stream is decoded and
written again as it stands (`saved_unpacked`).
-/

namespace Libts
set_option autoImplicit false

open CArith

namespace TsStreamPes

/-- An entry as the maps describe it: nothing in an absent descriptor, and no packets yet. -/
structure Mapped (p : TsStreamPes) : Prop where
  descriptor : p.descriptor.Plain
  packets : p.packets = []

variable {p : TsStreamPes}

theorem plain_setDescriptor (plain : p.descriptor.Plain) (s : TsPmtStream) : (p.setDescriptor s).descriptor.Plain := by
  rw [setDescriptor]
  split
  · rename_i copied
    intro absent
    have size : s.descriptor.size = 0 := if_neg (not_not.mpr absent)
    exact absurd size copied.2
  · exact plain

theorem mapped_merge (s : TsPmtStream) (mapped : p.Mapped) : (p.merge s).2.Mapped := by
  refine ⟨?_, (packets_merge p s).trans mapped.packets⟩
  have first : (p.setType s).descriptor.Plain := by
    rw [setType_eq]
    exact mapped.descriptor
  have both := plain_setDescriptor first s
  simp only [merge]
  split
  · exact first
  · split <;> exact both

end TsStreamPes

namespace TsStream

section Passes

variable {ts : TsStream} {us : List TsUnit}

/-- The PIDs of the program are ones of the wire. -/
def InRange (ts : TsStream) : Prop := (0 ≤ ts.programPid ∧ ts.programPid ≤ 8191) ∧ 0 ≤ ts.pcrPid ∧ ts.pcrPid ≤ 8191

theorem inRange_unpackPatLoop (us : List TsUnit) (range : ts.InRange) : (unpackPatLoop us ts).2.InRange := by
  apply unpackPatLoop_keeps _ us range
  intro t pid kept
  rw [setProgramPid]
  split
  · have small := pid.isLt
    refine ⟨⟨Int.natCast_nonneg _, ?_⟩, kept.2⟩
    change ((pid.toNat : Nat) : Int) ≤ 8191
    omega
  · exact kept

theorem inRange_unpackPmtLoop (us : List TsUnit) (range : ts.InRange) : (unpackPmtLoop us ts).2.InRange := by
  apply unpackPmtLoop_keeps _ _ us range
  · exact fun _ _ kept => kept
  · intro t pid kept
    rw [setPcrPid]
    split
    · have small := pid.isLt
      refine ⟨kept.1, Int.natCast_nonneg _, ?_⟩
      change ((pid.toNat : Nat) : Int) ≤ 8191
      omega
    · exact kept

theorem mapped_unpackPmtLoop (us : List TsUnit) (mapped : ∀ p ∈ ts.streams, p.Mapped) :
    ∀ p ∈ (unpackPmtLoop us ts).2.streams, p.Mapped := by
  apply unpackPmtLoop_keeps (P := fun t => ∀ p ∈ t.streams, p.Mapped) _ _ us mapped
  · intro t s kept
    apply FindOrInsert.forall_update
    · exact ⟨fun _ => rfl, rfl⟩
    · exact fun p => p.mapped_merge s
    · exact kept
  · intro t pid kept
    rw [streams_setPcrPid]
    exact kept

end Passes

/-- No packet has 2 GiB. -/
def Small (ts : TsStream) : Prop := ∀ s ∈ ts.streams, ∀ pes ∈ s.packets, pes.data.length < 2 ^ 31 - 13

/-- The PIDs of its streams are neither those of the tables nor, without a clock, the one that stands for none. -/
structure Apart (ts : TsStream) : Prop where
  tables : ∀ s ∈ ts.streams, s.pid ≠ 0 ∧ s.pid ≠ ts.programPid
  clock : ts.pcrPid ≠ 0 ∨ ∀ s ∈ ts.streams, s.pid ≠ 0x1fff

section Loaded

variable {units : TsUnits} {ts : TsStream} (loaded : construct.unpack units = (1, ts))
include loaded

theorem inRange_unpack : ts.InRange := by
  obtain ⟨told, described, pat, pmt, rfl⟩ := unpack_accepted_iff.1 loaded
  have start : construct.InRange := by
    unfold InRange
    decide
  have first := inRange_unpackPatLoop units.list start
  rw [pat] at first
  rw [unpackPmt] at pmt
  split at pmt
  · cases pmt
  · have second := inRange_unpackPmtLoop units.list first
    rw [pmt] at second
    exact second

theorem descriptor_unpack : ts.descriptor = {} := by
  obtain ⟨-, described, mapped, rfl⟩ := unpack_construct loaded
  have kept := descriptor_unpackPmtLoop units.list { programPid := announced units.list }
  rw [mapped] at kept
  exact kept

/-- The entries are those of the maps, with what was read of the units of their PIDs. -/
theorem entries_unpack : ∀ s ∈ ts.streams, s.descriptor.Plain ∧ s.packets =
    (units.list.filter fun u => (u.pid.toNat : Int) = s.pid).filterMap fun u => TsPes.read u.randomAccessIndicator u.data := by
  obtain ⟨-, described, mapped, rfl⟩ := unpack_construct loaded
  have empty : ∀ p ∈ ({ programPid := announced units.list } : TsStream).streams, p.Mapped := List.forall_mem_nil _
  have kept := mapped_unpackPmtLoop units.list empty
  rw [mapped] at kept
  intro s member
  obtain ⟨p, there, rfl⟩ := List.mem_map.mp member
  obtain ⟨plain, none⟩ := kept p there
  rw [TsStreamPes.unpackUnits_filterMap]
  refine ⟨plain, ?_⟩
  simp only [none, List.nil_append]

/-- A packet was read of a unit of its stream. -/
theorem read_unpack {s : TsStreamPes} (there : s ∈ ts.streams) {pes : TsPes} (member : pes ∈ s.packets) :
    ∃ u ∈ units.list, (u.pid.toNat : Int) = s.pid ∧ TsPes.read u.randomAccessIndicator u.data = some pes := by
  rw [(entries_unpack loaded s there).2] at member
  obtain ⟨u, inside, read⟩ := List.mem_filterMap.mp member
  obtain ⟨listed, own⟩ := List.mem_filter.mp inside
  exact ⟨u, listed, by simpa using own, read⟩

/-- A description can be given of it when no stream has the PID of a table. -/
theorem describable_unpack (apart : ∀ s ∈ ts.streams, s.pid ≠ 0 ∧ s.pid ≠ ts.programPid) : ts.Describable := by
  obtain ⟨program, clock⟩ := inRange_unpack loaded
  have given := programPid_unpack loaded
  have range := pids_unpack loaded
  have distinct : ts.Distinct := by
    have kept := distinct_unpack distinct_construct units
    rw [loaded] at kept
    exact kept
  refine ⟨by omega, clock, fun _ => ?_, distinct, ?_, fun s there => (entries_unpack loaded s there).1⟩
  · rw [descriptor_unpack loaded]
  · intro s there
    obtain ⟨low, high⟩ := range s there
    obtain ⟨other, own⟩ := apart s there
    omega

/-- No packet is longer than the unit it was read of. -/
theorem length_data_unpack {s : TsStreamPes} (there : s ∈ ts.streams) {pes : TsPes} (member : pes ∈ s.packets) :
    ∃ u ∈ units.list, pes.data.length ≤ u.data.length := by
  obtain ⟨u, listed, -, read⟩ := read_unpack loaded there member
  obtain ⟨-, rfl⟩ := TsPes.framed_of_read read
  refine ⟨u, listed, ?_⟩
  change (TsPes.wire u.data).data.length ≤ u.data.length
  rw [TsPes.wire]
  split <;> simp

/-- Its packets with a time stamp are ones that the decoder restores. -/
theorem encodable_unpack : ∀ s ∈ ts.streams, ∀ pes ∈ s.packets, pes.ptsIndicator = true → pes.Encodable := by
  intro s there pes member stamped
  obtain ⟨u, listed, -, read⟩ := read_unpack loaded there member
  obtain ⟨-, rfl⟩ := TsPes.framed_of_read read
  obtain ⟨padding, private2, pts, dts, noPts, noDts⟩ := TsPes.encodable_wire (TsPes.headed_of_pts stamped)
  exact ⟨padding, private2, pts, dts, noPts, noDts⟩

theorem pack_ok_of_fits (fits : Fits units.list) (out : TsUnits) : (ts.pack out).map Prod.fst = some 1 := by
  rw [pack_eq (programPid_unpack loaded), if_neg ((fits_iff loaded).1 fits), Option.map_some, packPes_unpack loaded]

/-- **A decoded stream is written as it stands**: what the encoder writes of it is decoded to a stream of which it
writes the same. -/
theorem saved_unpacked (small : ts.Small) (apart : ts.Apart) (fits : Fits units.list) (out : TsUnits) :
    construct.unpack { list := ts.saved out } = (1, ts.reread) ∧
      (ts.reread.pack out).map Prod.fst = some 1 ∧ ts.reread.saved out = ts.saved out := by
  have describable := describable_unpack loaded apart.tables
  have ok := pack_ok_of_fits loaded fits out
  have absent : ts.descriptor.tag = 0 := by rw [descriptor_unpack loaded]
  refine ⟨describable.unpack_saved_eq ok, describable.saved_reread ok absent apart.clock ?_⟩
  intro s there pes member
  have inside := (List.takeWhile_prefix _).subset member
  exact ⟨encodable_unpack loaded s there pes inside (List.mem_takeWhile_imp member), small s there pes inside⟩

end Loaded

end TsStream
end Libts
