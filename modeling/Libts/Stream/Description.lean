import Mathlib.Algebra.Order.BigOperators.Group.List
import Mathlib.Data.List.Perm.Subperm
import Libts.Stream.Passes
import Libts.Stream.Remux

/-!
# The program description

What `pack` writes about the program and what `unpack` of these units makes of it. Types,
PIDs and descriptors of the streams come back in order (`unpack_saved`). The descriptor of
the program is written into the map and never read from it, and a PCR PID that is not set
is written as `0x1fff` and read as that.
-/

namespace Libts
set_option autoImplicit false

open CArith

namespace TsStreamPes

/-- The entry without its packets. -/
def bare (p : TsStreamPes) : TsStreamPes := { p with packets := [] }

/-- What the map says about a stream. -/
def description (p : TsStreamPes) : Int × UInt8 × TsPmtDescriptor := (p.pid, p.type, p.descriptor)

theorem description_unpackUnits (us : List TsUnit) (p : TsStreamPes) :
    (unpackUnits us p).description = p.description := by
  obtain ⟨more, extended⟩ := unpackUnits_eq us p
  rw [extended]
  rfl

/-- A fresh entry takes what the map says. -/
theorem merge_fresh (pid : Int) {s : TsPmtStream} (plain : s.descriptor.Plain) :
    (fresh pid).merge s = (1, { pid := pid, type := s.streamType, descriptor := s.descriptor }) := by
  have type : (fresh pid).setType s = { pid := pid, type := s.streamType } := rfl
  have descriptor : ({ pid := pid, type := s.streamType } : TsStreamPes).setDescriptor s =
      { pid := pid, type := s.streamType, descriptor := s.descriptor } := by
    obtain absent | present := Decidable.em (s.descriptor.tag = 0)
    · have none := plain.eq_default absent
      have size : ¬ (({} : TsPmtDescriptor).size = 0 ∧ ({} : TsPmtDescriptor).size ≠ 0) := fun both => both.2 both.1
      rw [setDescriptor, none, if_neg size]
    · have size : s.descriptor.size ≠ 0 := by
        rw [TsPmtDescriptor.size, if_pos present]
        omega
      exact if_pos ⟨rfl, size⟩
  have equal : s.descriptor.equal s.descriptor = true := by simp [TsPmtDescriptor.equal]
  simp only [merge, type, descriptor, ne_eq, not_true_eq_false, if_false, equal, Bool.not_true, Bool.false_eq_true]

end TsStreamPes

namespace TsStream

/-- A stream a description can be given of: PIDs that are in range and not used twice, and
no data in absent descriptors. -/
structure Describable (ts : TsStream) : Prop where
  programPid : 1 ≤ ts.programPid ∧ ts.programPid ≤ 8191
  pcrPid : 0 ≤ ts.pcrPid ∧ ts.pcrPid ≤ 8191
  descriptor : ts.descriptor.Plain
  distinct : ts.Distinct
  pids : ∀ s ∈ ts.streams, 1 ≤ s.pid ∧ s.pid ≤ 8191 ∧ s.pid ≠ ts.programPid
  descriptors : ∀ s ∈ ts.streams, s.descriptor.Plain

variable {ts : TsStream} {units : TsUnits}

/-! ## The units that are written -/

def patUnit (ts : TsStream) : TsUnit := { data := ts.pat.packetBytes }

def pmtUnit (ts : TsStream) : TsUnit := { pid := BitVec.ofInt 13 ts.programPid, data := ts.pmt.packetBytes }

theorem packPat_eq (given : ts.programPid ≠ 0) (units : TsUnits) :
    ts.packPat units = some (1, { list := units.list ++ [ts.patUnit] }) := by
  rw [packPat, if_neg given]
  simp only [TsUnit.construct, TsPat.packBuffer_eq, Option.map_some]
  rfl

theorem packPmt_eq (given : ts.programPid ≠ 0) (units : TsUnits) :
    ts.packPmt units = if intOfSize ts.pmt.sectionLength > 1021 then some (-1, units)
      else some (1, { list := units.list ++ [ts.pmtUnit] }) := by
  rw [packPmt, if_neg given]
  simp only [TsUnit.construct, TsPmt.packBuffer_eq]
  split <;> rfl

/-- The whole effect of the encoder, up to the packets. -/
theorem pack_eq (given : ts.programPid ≠ 0) (units : TsUnits) :
    ts.pack units =
      if intOfSize ts.pmt.sectionLength > 1021 then some (-1, { list := units.list ++ [ts.patUnit] })
      else some (ts.packPes { list := units.list ++ [ts.patUnit, ts.pmtUnit] }) := by
  have passes : (1 : Int) ≥ 0 := by decide
  rw [pack, packPat_eq given]
  simp only [Option.bind_some, if_pos passes, packPmt_eq given]
  split
  · rfl
  · rw [Option.map_some]
    simp only [if_pos passes, List.append_assoc, List.cons_append, List.nil_append]

/-- Tables that fit, and packets that are written. -/
theorem pack_ok (given : ts.programPid ≠ 0) (fits : ts.pmt.sectionLength ≤ 1021)
    (written : (ts.packPes { list := units.list ++ [ts.patUnit, ts.pmtUnit] }).1 = 1) :
    (ts.pack units).map Prod.fst = some 1 := by
  have length : intOfSize ts.pmt.sectionLength = ts.pmt.sectionLength := intOfSize_of_lt (by omega)
  rw [pack_eq given, if_neg (by omega), Option.map_some, written]

theorem Describable.plain (h : ts.Describable) : ts.pmt.Plain := by
  constructor
  · exact h.descriptor
  · intro p member
    obtain ⟨s, there, rfl⟩ := List.mem_map.mp member
    exact h.descriptors s there

/-- There are too few PIDs for a section length that is no `int`. -/
theorem sectionLength_lt (distinct : ts.Distinct) (pids : ∀ s ∈ ts.streams, 0 ≤ s.pid ∧ s.pid ≤ 8191) :
    ts.pmt.sectionLength < 2 ^ 31 := by
  have inside : ts.streams.map TsStreamPes.pid ⊆ (List.range 8192).map Int.ofNat := by
    intro pid member
    obtain ⟨s, there, rfl⟩ := List.mem_map.mp member
    obtain ⟨low, high⟩ := pids s there
    exact List.mem_map.mpr ⟨s.pid.toNat, List.mem_range.mpr (by omega), Int.toNat_of_nonneg low⟩
  have few := (List.subperm_of_subset distinct inside).length_le
  have own := ts.pmt.descriptor.size_le
  have each := List.sum_le_card_nsmul (ts.pmt.streams.map fun p => 5 + p.descriptor.size) 262 (by
    intro length member
    obtain ⟨p, -, rfl⟩ := List.mem_map.mp member
    have size := p.descriptor.size_le
    omega)
  have count : ts.pmt.streams.length = ts.streams.length := List.length_map _
  rw [List.length_map, List.length_map, List.length_range] at few
  rw [List.length_map, count, Nat.nsmul_eq_mul] at each
  rw [TsPmt.sectionLength]
  omega

theorem Describable.sectionLength_lt (h : ts.Describable) : ts.pmt.sectionLength < 2 ^ 31 := by
  apply TsStream.sectionLength_lt h.distinct
  intro s there
  obtain ⟨low, high, -⟩ := h.pids s there
  exact ⟨by omega, high⟩

/-- The units `pack` appends. -/
def saved (ts : TsStream) (units : TsUnits) : List TsUnit :=
  (ts.pack units).elim [] fun r => r.2.list.drop units.list.length

/-- The association, the map and the packets of the streams. -/
theorem Describable.saved_eq (h : ts.Describable) (ok : (ts.pack units).map Prod.fst = some 1) :
    ts.pmt.sectionLength ≤ 1021 ∧
      ∃ chosen, ts.saved units = ts.patUnit :: ts.pmtUnit :: ts.emitted false chosen ∧
        ∀ c ∈ chosen, c.pesStream ∈ ts.streams := by
  have given : ts.programPid ≠ 0 := by
    have low := h.programPid.1
    omega
  have length := intOfSize_of_lt h.sectionLength_lt
  have packed := pack_eq given units
  split at packed
  · rw [packed] at ok
    cases ok
  · rename_i fits
    rw [packed] at ok
    obtain ⟨chosen, result, -, table⟩ := packPes_run (Option.some.inj ok)
    refine ⟨by omega, chosen, ?_, fun c member => List.mem_of_getElem? (table c member)⟩
    rw [saved, packed, Option.elim_some, result, List.append_assoc, List.drop_left]
    rfl

/-! ## What is made of them -/

/-- No unit of a packet has a PID that no stream has. -/
theorem filter_emitted_other (ts : TsStream) {pid : Int} (pcrRecorded : Bool) {cs : List Selected}
    (other : ∀ c ∈ cs, ((BitVec.ofInt 13 c.pesStream.pid).toNat : Int) ≠ pid) :
    (ts.emitted pcrRecorded cs).filter (fun u => (u.pid.toNat : Int) = pid) = [] := by
  induction cs generalizing pcrRecorded with
  | nil => rfl
  | cons c cs ih =>
    obtain ⟨first, later⟩ := List.forall_mem_cons.mp other
    rw [emitted, List.filter_cons_of_neg]
    · exact ih _ later
    · rw [(ts.pesUnit_eq pcrRecorded c).1]
      simpa using first

/-- The PCR PID that is read. -/
def wirePcrPid (ts : TsStream) : Int := if ts.pcrPid ≠ 0 then ts.pcrPid else 0x1fff

theorem Describable.pcrPid_eq (h : ts.Describable) : (ts.pmt.pcrPid.toNat : Int) = ts.wirePcrPid := by
  obtain ⟨low, high⟩ := h.pcrPid
  simp only [pmt, wirePcrPid]
  split
  · exact toNat_ofInt_pid low (by omega)
  · rfl

/-- The streams of a map are put into the table in order. -/
theorem mergeStreams_fresh (ss : List TsStreamPes) (ts : TsStream)
    (distinct : ((ts.streams ++ ss).map TsStreamPes.pid).Nodup) (pids : ∀ s ∈ ss, 1 ≤ s.pid ∧ s.pid ≤ 8191)
    (descriptors : ∀ s ∈ ss, s.descriptor.Plain) :
    mergeStreams (ss.map pmtStream) ts = (1, { ts with streams := ts.streams ++ ss.map TsStreamPes.bare }) := by
  induction ss generalizing ts with
  | nil => rw [List.map_nil, List.map_nil, List.append_nil, mergeStreams]
  | cons s ss ih =>
    obtain ⟨⟨low, high⟩, pids⟩ := List.forall_mem_cons.mp pids
    obtain ⟨plain, descriptors⟩ := List.forall_mem_cons.mp descriptors
    have pid : ((pmtStream s).elementaryPid.toNat : Int) = s.pid := toNat_ofInt_pid (by omega) (by omega)
    have absent : s.pid ∉ ts.streams.map TsStreamPes.pid := by
      rw [List.map_append, List.map_cons, List.nodup_append] at distinct
      intro there
      exact distinct.2.2 _ there _ List.mem_cons_self rfl
    have merged : (TsStreamPes.fresh s.pid).merge (pmtStream s) = (1, s.bare) :=
      TsStreamPes.merge_fresh s.pid (s := pmtStream s) plain
    have accepted : ¬ (1 : Int) = -1 := by decide
    rw [List.map_cons, mergeStreams_cons]
    simp only [entry, TsStream.merged, pid]
    rw [FindOrInsert.entry_absent _ _ absent, FindOrInsert.update_absent _ _ _ absent, merged]
    simp only [if_neg accepted]
    rw [ih _ _ pids descriptors]
    · simp only [List.append_assoc, List.map_cons, List.cons_append, List.nil_append]
    · simpa only [List.map_append, List.map_cons, List.map_nil, List.append_assoc, List.cons_append, List.nil_append,
        TsStreamPes.bare] using distinct

/-- What is read of the program association of a stream that was written. -/
def associated (ts : TsStream) : TsStream := { programPid := ts.programPid }

/-- What is read of both tables. -/
def described (ts : TsStream) : TsStream :=
  { programPid := ts.programPid, pcrPid := ts.wirePcrPid, streams := ts.streams.map TsStreamPes.bare }

theorem Describable.unpackPat_saved (h : ts.Describable) {pes : List TsUnit}
    (other : pes.filter (fun u => u.pid = 0) = []) :
    construct.unpackPat { list := ts.patUnit :: ts.pmtUnit :: pes } = (1, ts.associated) := by
  obtain ⟨low, high⟩ := h.programPid
  have number : ((BitVec.ofInt 13 ts.programPid).toNat : Int) = ts.programPid := toNat_ofInt_pid (by omega) (by omega)
  have read : TsPat.construct.unpackBuffer ts.patUnit.data = (1, ts.pat) := TsPat.unpackBuffer_packetBytes ts.pat
  have set : construct.setProgramPid ts.pat.programPid = ts.associated := by
    rw [associated, ← number]
    rfl
  have agrees : (construct.setProgramPid ts.pat.programPid).programPid = ts.pat.programPid.toNat := rfl
  have apart : ts.pmtUnit.pid ≠ 0 := by
    intro same
    have zero : ((BitVec.ofInt 13 ts.programPid).toNat : Int) = 0 := congrArg (fun pid : BitVec 13 => (pid.toNat : Int)) same
    omega
  rw [unpackPat, unpackPatLoop_own rfl read agrees, unpackPatLoop_other apart, unpackPatLoop_none other, set]

theorem Describable.unpackPmt_saved (h : ts.Describable) (fits : ts.pmt.sectionLength ≤ 1021) {pes : List TsUnit}
    (other : pes.filter (fun u => (u.pid.toNat : Int) = ts.programPid) = []) :
    ts.associated.unpackPmt { list := ts.patUnit :: ts.pmtUnit :: pes } = (1, ts.described) := by
  obtain ⟨low, high⟩ := h.programPid
  have own : (ts.pmtUnit.pid.toNat : Int) = ts.associated.programPid := toNat_ofInt_pid (by omega) (by omega)
  have apart : (ts.patUnit.pid.toNat : Int) ≠ ts.associated.programPid := by
    have zero : (ts.patUnit.pid.toNat : Int) = 0 := rfl
    have program : ts.associated.programPid = ts.programPid := rfl
    omega
  have given : ¬ ts.associated.programPid = 0 := by
    have program : ts.associated.programPid = ts.programPid := rfl
    omega
  have read : TsPmt.construct.unpackBuffer ts.pmtUnit.data = (1, ts.pmt) :=
    TsPmt.unpackBuffer_packetBytes ts.pmt h.plain fits
  have set : ts.associated.setPcrPid ts.pmt.pcrPid = { ts.associated with pcrPid := ts.wirePcrPid } := by
    rw [← h.pcrPid_eq]
    rfl
  have agrees : (ts.associated.setPcrPid ts.pmt.pcrPid).pcrPid = ts.pmt.pcrPid.toNat := rfl
  have merged : mergeStreams ts.pmt.streams (ts.associated.setPcrPid ts.pmt.pcrPid) = (1, ts.described) := by
    rw [set]
    exact mergeStreams_fresh ts.streams { ts.associated with pcrPid := ts.wirePcrPid } h.distinct
      (fun s there => ⟨(h.pids s there).1, (h.pids s there).2.1⟩) h.descriptors
  rw [unpackPmt, if_neg given, unpackPmtLoop_other apart, unpackPmtLoop_own own read agrees merged]
  exact unpackPmtLoop_none other

/-- **A stream that was written is read back** up to its packets, with the two losses of the
program map. -/
theorem Describable.unpack_saved (h : ts.Describable) (ok : (ts.pack units).map Prod.fst = some 1) :
    construct.unpack { list := ts.saved units } =
      (1, { ts.described with streams := ts.described.streams.map (TsStreamPes.unpackUnits (ts.saved units)) }) := by
  obtain ⟨fits, chosen, written, table⟩ := h.saved_eq ok
  obtain ⟨low, high⟩ := h.programPid
  have numbers : ∀ c ∈ chosen, ((BitVec.ofInt 13 c.pesStream.pid).toNat : Int) = c.pesStream.pid ∧
      1 ≤ c.pesStream.pid ∧ c.pesStream.pid ≠ ts.programPid := by
    intro c member
    obtain ⟨low, high, apart⟩ := h.pids _ (table c member)
    exact ⟨toNat_ofInt_pid (by omega) (by omega), low, apart⟩
  have zero : (ts.emitted false chosen).filter (fun u => u.pid = 0) = [] := by
    rw [← filter_toNat]
    apply filter_emitted_other
    intro c member
    obtain ⟨number, low, -⟩ := numbers c member
    have pat : ((0 : BitVec 13).toNat : Int) = 0 := rfl
    omega
  have program := filter_emitted_other ts false fun c member => by
    obtain ⟨number, -, apart⟩ := numbers c member
    rw [number]
    exact apart
  rw [written]
  exact unpack_accepted_iff.2 ⟨_, _, h.unpackPat_saved zero, h.unpackPmt_saved fits program, rfl⟩

/-! ## The description -/

/-- The result of a decoder, with the description of `ts`. -/
structure Survives (ts : TsStream) (loaded : Int × TsStream) : Prop where
  result : loaded.1 = 1
  programPid : loaded.2.programPid = ts.programPid
  pcrPid : loaded.2.pcrPid = ts.pcrPid
  descriptor : loaded.2.descriptor = ts.descriptor
  streams : loaded.2.streams.map TsStreamPes.description = ts.streams.map TsStreamPes.description

/-- **The program description survives** exactly when the program has no descriptor and its
PCR PID is set. -/
theorem survives_iff (h : ts.Describable) (ok : (ts.pack units).map Prod.fst = some 1) :
    ts.Survives (construct.unpack { list := ts.saved units }) ↔ ts.descriptor.tag = 0 ∧ ts.pcrPid ≠ 0 := by
  rw [h.unpack_saved ok]
  constructor
  · rintro ⟨-, -, pcrPid, descriptor, -⟩
    constructor
    · exact congrArg TsPmtDescriptor.tag descriptor.symm
    · intro unset
      have read : ts.wirePcrPid = ts.pcrPid := pcrPid
      rw [wirePcrPid, if_neg (not_not.mpr unset), unset] at read
      cases read
  · rintro ⟨absent, set⟩
    refine ⟨rfl, rfl, if_pos set, ?_, ?_⟩
    · exact (h.descriptor.eq_default absent).symm
    · simp only [described, List.map_map]
      apply List.map_congr_left
      intro s _
      exact TsStreamPes.description_unpackUnits _ _

/-- A program with two streams, one with a descriptor. -/
def describedStreams : TsStream :=
  { programPid := 4096, pcrPid := 256, streams := [
      { pid := 256, type := 27 }, { pid := 257, type := 6, descriptor := { tag := 5, data := ⟨[1, 2], by decide⟩ } }] }

/-- The descriptor of a stream is kept. -/
theorem survives_iff_two :
    describedStreams.Survives (construct.unpack { list := describedStreams.saved {} }) ∧
      describedStreams.streams.map (fun s => s.descriptor.tag) = [0, 5] := by
  have describable : describedStreams.Describable :=
    ⟨by decide, by decide, fun _ => rfl, by decide, by decide, by decide⟩
  have ok : (describedStreams.pack {}).map Prod.fst = some 1 := by
    apply pack_ok (by decide) (by decide)
    rw [packPes_blocked (by decide)]
  exact ⟨(survives_iff describable ok).2 ⟨rfl, by decide⟩, rfl⟩

/-- A program with a descriptor. -/
def registered : TsStream := { programPid := 4096, pcrPid := 256, descriptor := { tag := 5, data := ⟨[1, 2], by decide⟩ } }

/-- The descriptor is lost. -/
theorem not_survives_descriptor :
    registered.Describable ∧ (registered.pack {}).map Prod.fst = some 1 ∧
      ¬ registered.Survives (construct.unpack { list := registered.saved {} }) := by
  have describable : registered.Describable :=
    ⟨by decide, by decide, fun absent => absurd absent (by decide), by decide, by decide, by decide⟩
  have ok : (registered.pack {}).map Prod.fst = some 1 := by
    apply pack_ok (by decide) (by decide)
    rw [packPes_blocked (by decide)]
  refine ⟨describable, ok, ?_⟩
  intro survives
  have descriptor := survives.descriptor
  rw [describable.unpack_saved ok] at descriptor
  exact absurd (congrArg TsPmtDescriptor.tag descriptor) (by decide)

end TsStream
end Libts
